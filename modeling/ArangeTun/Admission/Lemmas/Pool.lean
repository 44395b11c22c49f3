import ArangeTun.Admission.Lemmas.Filed

/-! # Admission to the pool -/

namespace ArangeTun.Admission

open Go Wire Transition

variable {size : Nat} {cfg : Config}

def Action.publishes : Action → Option Nat
  | .setNonce g | .setControl g => some g
  | _ => none

/-- `channelHandshake` sets the nonce and the control channel only while no `Restart` has replaced its
run. -/
def PublishesWhileCurrent (s : State size) (a : Action) : Prop :=
  ∀ g ∈ a.publishes, g + 1 = s.runs.length

instance (s : State size) (a : Action) : Decidable (PublishesWhileCurrent s a) :=
  inferInstanceAs (Decidable (∀ g ∈ a.publishes, g + 1 = s.runs.length))

/-- The control channel and the nonce, by how far the handshake of the current run is. -/
def View (controlChannel : Option Nat) (poolNonce : Str) (restart : RestartPc) : HandshakePc → Prop
  | .nonceSet k => controlChannel = none ∧ poolNonce = k.nonce
  | .published k => controlChannel = some k.conn ∧ poolNonce = k.nonce
  | .waiting | .received _ | .ended => controlChannel = none ∧ (restart ≠ .clearNonce → poolNonce = [])

/-- The connection showed the nonce of the candidate, or has the host of a legacy one. -/
def Admitted (conns : List TunnelConn) (h : HandshakePc) (c : TunnelConn) : Prop :=
  ∃ k, h.held = some k ∧ ∃ kc, conns[k.conn]? = some kc ∧
    ((k.nonce ≠ [] ∧ c.announced = some ⟨SG_Pool, k.nonce⟩) ∨
      (k.nonce = [] ∧ sameHost (some kc.remoteAddr) (some c.remoteAddr) = true))

def Phase (conns : List TunnelConn) (h : HandshakePc) (c : TunnelConn) : Prop :=
  match c.pc with
  | .checkNonce => ∃ k, h = .published k
  | .checkPeer => ∃ k, h = .published k ∧ k.nonce = []
  | .deliver => Admitted conns h c
  | _ => True

structure Current (s : State size) (g : Nat) (r : Run size) : Prop where
  last : g + 1 = s.runs.length
  run : s.runs[g]? = some r
  rebuilt : s.restart = .clearNonce ∨ s.restart = .start → r.started = false
  view : View s.controlChannel s.poolNonce s.restart r.handshake
  phase : ∀ (i : Nat) (c : TunnelConn), s.conns[i]? = some c → c.run = g → Phase s.conns r.handshake c
  pool : ∀ i ∈ r.tunnelChannel.buf, Filed s.conns g i (Admitted s.conns r.handshake)

section

variable {conns : List TunnelConn} {h h' : HandshakePc} {c c' d : TunnelConn} {g i j : Nat}
  {P Q : TunnelConn → Prop}

theorem Filed.imp (hf : Filed conns g i P) (hPQ : ∀ c, P c → Q c) : Filed conns g i Q := by
  obtain ⟨c, hc, hr, hpc, hP⟩ := hf
  exact ⟨c, hc, hr, hpc, hPQ c hP⟩

theorem Admitted.set (ha : Admitted conns h d) (hc : conns[i]? = some c) (hl : c.Later c') :
    Admitted (conns.set i c') h d := by
  obtain ⟨k, hk, hkc⟩ := ha
  exact ⟨k, hk, exists_set hkc hc fun hq => by rw [hl.2.1]; exact hq⟩

theorem Admitted.later (ha : Admitted conns h c) (hl : c.Later c') (hpc : c.pc = .returned) :
    Admitted conns h c' := by
  simpa only [Admitted, hl.2.1, (hl.2.2 hpc).2.1] using ha

theorem Phase.set (hp : Phase conns h d) (hc : conns[i]? = some c) (hl : c.Later c') :
    Phase (conns.set i c') h d := by
  unfold Phase at hp ⊢
  split at hp
  · exact hp
  · exact hp
  · exact hp.set hc hl
  · trivial

theorem Phase.concat (hp : Phase conns h c) : Phase (conns ++ [d]) h c := by
  unfold Phase at hp ⊢
  split at hp
  · exact hp
  · exact hp
  · obtain ⟨k, hk, hkc⟩ := hp
    exact ⟨k, hk, exists_concat hkc⟩
  · trivial

theorem Phase.handshake (hp : Phase conns h c) (hnot : ∀ k, h ≠ .published k)
    (hheld : ∀ k, h.held = some k → h'.held = some k) : Phase conns h' c := by
  unfold Phase at hp ⊢
  split at hp
  · obtain ⟨k, hk⟩ := hp
    exact absurd hk (hnot k)
  · obtain ⟨k, hk, _⟩ := hp
    exact absurd hk (hnot k)
  · obtain ⟨k, hk, hkc⟩ := hp
    exact ⟨k, hheld k hk, hkc⟩
  · trivial

end

section

variable {s : State size} {r r' : Run size} {c c' : TunnelConn} {g i : Nat}

theorem Current.setConn (h : Current s g r) (hc : s.conns[i]? = some c) (hl : c.Later c')
    (hp : c.run = g → Phase s.conns r.handshake c') : Current (s.setConn i c') g r where
  last := h.last
  run := h.run
  rebuilt := h.rebuilt
  view := h.view
  phase := by
    refine forall_set (fun j d hd hg => (h.phase j d hd hg).set hc hl) fun hg => ?_
    exact (hp (hl.1.symm.trans hg)).set hc hl
  pool j hj := ((h.pool j hj).set hc hl fun hpc ha => ha.later hl hpc).imp fun _ ha => ha.set hc hl

theorem Current.setRun (h : Current s g r) (hstart : r'.started = r.started)
    (hview : View s.controlChannel s.poolNonce s.restart r'.handshake)
    (hphase : ∀ c, Phase s.conns r.handshake c → Phase s.conns r'.handshake c)
    (hpool : ∀ j ∈ r'.tunnelChannel.buf, Filed s.conns g j (Admitted s.conns r'.handshake)) :
    Current (s.setRun g r') g r' where
  last := by
    rw [State.setRun, List.length_set]
    exact h.last
  run := getElem?_set_self h.run
  rebuilt hp := hstart.trans (h.rebuilt hp)
  view := hview
  phase i c hc hg := hphase c (h.phase i c hc hg)
  pool := hpool

theorem Current.eq_of_publishes {g' : Nat} (h : Current s g r) (hpub : g' + 1 = s.runs.length) : g' = g := by
  have := h.last
  omega

theorem Current.publish {pc : HandshakePc} {control : Option Nat} {nonce : Str} (h : Current s g r)
    (hnot : ∀ k, r.handshake ≠ .published k) (hheld : pc.held = r.handshake.held)
    (hview : View control nonce s.restart pc) :
    Current { s.setRun g { r with handshake := pc } with controlChannel := control, poolNonce := nonce } g
      { r with handshake := pc } where
  last := by
    rw [State.setRun, List.length_set]
    exact h.last
  run := getElem?_set_self h.run
  rebuilt := h.rebuilt
  view := hview
  phase i c hc hg := (h.phase i c hc hg).handshake hnot fun _ hk => hheld.trans hk
  pool j hj := (h.pool j hj).imp fun _ ⟨k, hk, hkc⟩ => ⟨k, hheld.trans hk, hkc⟩

theorem Current.setRun_ne {g' : Nat} (h : Current s g r) (hne : g' ≠ g) : Current (s.setRun g' r') g r where
  last := by
    rw [State.setRun, List.length_set]
    exact h.last
  run := by
    rw [State.setRun, getElem?_set_ne hne]
    exact h.run
  rebuilt := h.rebuilt
  view := h.view
  phase := h.phase
  pool := h.pool

theorem Current.setRun_same {g' : Nat} {r₁ r₁' : Run size} (h : Current s g r)
    (hr : s.runs[g']? = some r₁) (hstart : r₁'.started = r₁.started)
    (hh : r₁'.handshake = r₁.handshake) (ht : ∀ j ∈ r₁'.tunnelChannel.buf, j ∈ r₁.tunnelChannel.buf) :
    ∃ r', Current (s.setRun g' r₁') g r' := by
  by_cases hg : g' = g
  · subst hg
    obtain rfl := Option.some.inj (hr.symm.trans h.run)
    refine ⟨r₁', h.setRun hstart ?_ (fun c hp => ?_) fun j hj => ?_⟩
    · rw [hh]
      exact h.view
    · rw [hh]
      exact hp
    · rw [hh]
      exact h.pool j (ht j hj)
  · exact ⟨r, h.setRun_ne hg⟩

theorem Current.started (h : Current s g r) (hb : Base s.runs s.conns) (hc : s.conns[i]? = some c)
    (hg : c.run = g) : r.started = true := by
  obtain ⟨r₀, hr₀, hs⟩ := (hb.sound i c hc).2
  rw [hg, h.run, Option.some.injEq] at hr₀
  exact hr₀ ▸ hs

theorem Current.not_clearing (h : Current s g r) (hs : r.started = true) : s.restart ≠ .clearNonce := by
  intro hpc
  rw [h.rebuilt (Or.inl hpc)] at hs
  cases hs

theorem Current.published (h : Current s g r) {k : Nat} (hk : s.controlChannel = some k) :
    ∃ k', r.handshake = .published k' ∧ k'.conn = k := by
  have hv := h.view
  unfold View at hv
  split at hv
  · rw [hv.1] at hk; cases hk
  · rename_i k' hh
    rw [hv.1, Option.some.injEq] at hk
    exact ⟨k', hh, hk⟩
  · rw [hv.1] at hk; cases hk
  · rw [hv.1] at hk; cases hk
  · rw [hv.1] at hk; cases hk

theorem Current.nonce_held (h : Current s g r) (hs : r.started = true) (hn : s.poolNonce ≠ []) :
    ∃ k, r.handshake.held = some k ∧ s.poolNonce = k.nonce := by
  have hpc := h.not_clearing hs
  have hv := h.view
  unfold View at hv
  split at hv
  · rename_i k hh
    exact ⟨k, by rw [hh]; rfl, hv.2⟩
  · rename_i k hh
    exact ⟨k, by rw [hh]; rfl, hv.2⟩
  · exact absurd (hv.2 hpc) hn
  · exact absurd (hv.2 hpc) hn
  · exact absurd (hv.2 hpc) hn

theorem Current.candidate (h : Current s g r) (hb : Base s.runs s.conns) {k : Candidate}
    (hk : r.handshake.held = some k) : Filed s.conns g k.conn (·.Opened k.nonce) :=
  hb.cands g r h.run k (Or.inr hk)

theorem Moves.phase (h : Current s g r) (hb : Base s.runs s.conns) (hc : s.conns[i]? = some c)
    (hg : c.run = g) (hm : Moves cfg s.controlChannel.isSome s.controlPeer s.poolNonce c c') :
    Phase s.conns r.handshake c' := by
  have hphase := h.phase i c hc hg
  cases hm with
  | isSet hpc hset =>
    obtain ⟨k, hk⟩ := Option.isSome_iff_exists.mp hset
    obtain ⟨k', hk', _⟩ := h.published hk
    exact ⟨k', hk'⟩
  | legacy hpc hn =>
    simp only [Phase, hpc] at hphase
    obtain ⟨k, hk⟩ := hphase
    have hv := h.view
    rw [hk] at hv
    exact ⟨k, hk, hv.2.symm.trans hn⟩
  | peer hpc hsame =>
    simp only [Phase, hpc] at hphase
    obtain ⟨k, hk, hn⟩ := hphase
    have hv := h.view
    rw [hk] at hv
    have hheld : r.handshake.held = some k := by rw [hk]; rfl
    obtain ⟨kc, hkc, _⟩ := h.candidate hb hheld
    refine ⟨k, hheld, kc, hkc, Or.inr ⟨hn, hsame kc.remoteAddr ?_⟩⟩
    rw [State.controlPeer, hv.1, Option.bind_some, hkc]
    rfl
  | verified hpc hn hp =>
    obtain ⟨k, hheld, hnonce⟩ := h.nonce_held (h.started hb hc hg) hn
    obtain ⟨kc, hkc, _⟩ := h.candidate hb hheld
    have hsound := (hb.sound i c hc).1
    simp only [TunnelConn.Sound, hpc] at hsound
    refine ⟨k, hheld, kc, hkc, Or.inl ⟨hnonce ▸ hn, ?_⟩⟩
    rw [← hnonce, ← hp]
    exact hsound
  | _ => trivial

theorem View.restart {ctl : Option Nat} {nonce : Str} {pc pc' : RestartPc} {h : HandshakePc}
    (hv : View ctl nonce pc h) (hpc : pc' ≠ .clearNonce → pc ≠ .clearNonce) : View ctl nonce pc' h := by
  unfold View at hv ⊢
  split at hv
  · exact hv
  · exact hv
  · exact ⟨hv.1, fun hne => hv.2 (hpc hne)⟩
  · exact ⟨hv.1, fun hne => hv.2 (hpc hne)⟩
  · exact ⟨hv.1, fun hne => hv.2 (hpc hne)⟩

theorem Current.restartTo {pc : RestartPc} (h : Current s g r)
    (hpc : pc ≠ .clearNonce → s.restart ≠ .clearNonce)
    (hreb : pc = .clearNonce ∨ pc = .start → r.started = false) : Current { s with restart := pc } g r :=
  ⟨h.last, h.run, hreb, h.view.restart hpc, h.phase, h.pool⟩

theorem Current.closeControl (h : Current s g r) : Current s.closeControl g r := by
  unfold State.closeControl
  split
  · exact h
  · split
    · exact h
    · rename_i c hc
      exact h.setConn hc c.later_closed fun hg => h.phase _ c hc hg

end

theorem current_initial : Current (State.initial : State size) 0 (.make true) where
  last := rfl
  run := rfl
  rebuilt h := by rcases h with h | h <;> cases h
  view := ⟨rfl, fun _ => rfl⟩
  phase i c hc := by simp [State.initial] at hc
  pool i hi := by cases hi

theorem Current.handshake {s : State size} {g g' : Nat} {r r₁ r₁' : Run size} (h : Current s g r)
    (hr : s.runs[g']? = some r₁) (hstart : r₁'.started = r₁.started)
    (hw : r₁.handshake = .waiting) (hw' : (∃ k, r₁'.handshake = .received k) ∨ r₁'.handshake = .ended)
    (ht : r₁'.tunnelChannel = r₁.tunnelChannel) : ∃ r', Current (s.setRun g' r₁') g r' := by
  by_cases hg : g' = g
  · subst hg
    obtain rfl := Option.some.inj (hr.symm.trans h.run)
    have hv := h.view
    rw [hw] at hv
    have hnone : ∀ k, r₁.handshake.held ≠ some k := by simp [hw, HandshakePc.held]
    refine ⟨r₁', h.setRun hstart ?_ (fun c hp => ?_) fun j hj => ?_⟩
    · rcases hw' with ⟨k, hk⟩ | hk
      · rw [hk]; exact hv
      · rw [hk]; exact hv
    · exact hp.handshake (by simp [hw]) fun k hk => absurd hk (hnone k)
    · rw [ht] at hj
      exact (h.pool j hj).imp fun c ⟨k, hk, _⟩ => absurd hk (hnone k)
  · exact ⟨r, h.setRun_ne hg⟩

theorem current_step {s s' : State size} {a : Action} {g : Nat} {r : Run size} (h : Current s g r)
    (hb : Base s.runs s.conns) (hpub : PublishesWhileCurrent s a) (hstep : Step cfg s a s') :
    ∃ g' r', Current s' g' r' := by
  cases hstep with
  | accept hr hs =>
    refine ⟨g, r, h.last, h.run, h.rebuilt, h.view, ?_, fun j hj => ?_⟩
    · refine forall_concat (fun j d hd hg => (h.phase j d hd hg).concat) fun _ => ?_
      cases cfg.stealth <;> trivial
    · exact (h.pool j hj).concat.imp fun c ⟨k, hk, hkc⟩ => ⟨k, hk, exists_concat hkc⟩
  | admitTunnelConn hc hm => exact ⟨g, r, h.setConn hc hm.later fun hg => hm.phase h hb hc hg⟩
  | @offerSent i c r₁ nonce ch hc hr hpc hch =>
    have h' : Current (s.setConn i c.done) g r := h.setConn hc c.later_done fun _ => trivial
    exact ⟨g, h'.setRun_same hr rfl rfl fun j hj => hj⟩
  | @offerFull i c nonce hc hpc => exact ⟨g, r, h.setConn hc c.later_drop fun _ => trivial⟩
  | @deliverFull i c hc hpc => exact ⟨g, r, h.setConn hc c.later_drop fun _ => trivial⟩
  | @deliverSent i c r₁ ch hc hr hpc hch =>
    have h' : Current (s.setConn i c.done) g r := h.setConn hc c.later_done fun _ => trivial
    by_cases hg : c.run = g
    · subst hg
      obtain rfl := Option.some.inj (hr.symm.trans h.run)
      refine ⟨c.run, _, h'.setRun rfl h'.view (fun _ hp => hp) fun j hj => ?_⟩
      rw [(Chan.trySend_eq_some hch).2, List.mem_append, List.mem_singleton] at hj
      rcases hj with hj | rfl
      · exact h'.pool j hj
      · have hp := h.phase j c hc rfl
        simp only [Phase, hpc] at hp
        exact ⟨c.done, getElem?_set_self hc, rfl, rfl, hp.set hc c.later_done⟩
    · exact ⟨g, r, h'.setRun_ne hg⟩
  | @take g₁ r₁ i ch hr hch =>
    refine ⟨g, h.setRun_same hr rfl rfl fun j hj => ?_⟩
    rw [Chan.tryRecv_eq_some hch]
    exact List.mem_cons_of_mem i hj
  | receive hr hs hw hch => exact ⟨g, h.handshake hr rfl hw (Or.inl ⟨_, rfl⟩) rfl⟩
  | giveUp hr hs hw => exact ⟨g, h.handshake hr rfl hw (Or.inr rfl) rfl⟩
  | setNonce hr hk =>
    have hv := h.view
    obtain rfl := h.eq_of_publishes (hpub _ rfl)
    obtain rfl := Option.some.inj (hr.symm.trans h.run)
    rw [hk] at hv
    exact ⟨_, _, h.publish (by simp [hk]) (by simp [hk, HandshakePc.held]) ⟨hv.1, rfl⟩⟩
  | setControl hr hk =>
    have hv := h.view
    obtain rfl := h.eq_of_publishes (hpub _ rfl)
    obtain rfl := Option.some.inj (hr.symm.trans h.run)
    rw [hk] at hv
    exact ⟨_, _, h.publish (by simp [hk]) (by simp [hk, HandshakePc.held]) ⟨rfl, hv.2⟩⟩
  | stopListening hr => exact ⟨g, h.setRun_same hr rfl rfl fun j hj => hj⟩
  | spawn hr => exact ⟨g, h.setRun_same hr rfl rfl fun j hj => hj⟩
  | watcherDone hr => exact ⟨g, h.setRun_same hr rfl rfl fun j hj => hj⟩
  | @watcherFails g₁ r₁ hr =>
    have hsame : ∃ r', Current (s.setRun g₁ { r₁ with watchers := r₁.watchers - 1 }) g r' :=
      h.setRun_same hr rfl rfl fun j hj => hj
    obtain ⟨r', h'⟩ := hsame
    exact ⟨g, r', h'.last, h'.run, h'.rebuilt, h'.view, h'.phase, h'.pool⟩
  | restartCalled hpc =>
    refine ⟨g, r, h.last, h.run, ?_, h.view.restart ?_, h.phase, h.pool⟩
    · rcases hpc with rfl | ⟨_, rfl⟩
      · exact h.rebuilt
      · rintro (hp | hp) <;> cases hp
    · rcases hpc with rfl | ⟨hi, rfl⟩
      · exact id
      · simp [hi]
  | @restartCancel g₁ r₁ hpc hr =>
    have hsame : ∃ r', Current (s.setRun g₁ { r₁ with cancelled := true }) g r' :=
      h.setRun_same hr rfl rfl fun j hj => hj
    obtain ⟨r', h'⟩ := hsame
    exact ⟨g, r', h'.restartTo (fun _ => by simp [State.setRun, hpc]) (by simp)⟩
  | restartClose hpc =>
    have hclosed : s.closeControl.restart ≠ .clearNonce := by
      unfold State.closeControl State.setConn
      split
      · simp [hpc]
      · split <;> simp [hpc]
    exact ⟨g, r, h.closeControl.restartTo (fun _ => hclosed) (by simp)⟩
  | restartSleep hpc hto =>
    refine ⟨g, r, h.restartTo (fun _ => by simp [hpc]) ?_⟩
    rcases hto with rfl | rfl <;> simp
  | restartRebuild hpc =>
    refine ⟨s.runs.length, .make false, by simp, by simp, fun _ => rfl, ⟨rfl, fun hne => absurd rfl hne⟩,
      fun i c hc hg => ?_, fun j hj => by cases hj⟩
    -- no connection belongs to a run that has not been started
    obtain ⟨r₀, hr₀, _⟩ := (hb.sound i c hc).2
    have := (List.getElem?_eq_some_iff.mp hr₀).1
    omega
  | restartClear hpc =>
    have hw := hb.idle g r h.run (h.rebuilt (Or.inl hpc))
    have hv := h.view
    rw [hw] at hv
    refine ⟨g, r, h.last, h.run, fun _ => h.rebuilt (Or.inl hpc), ?_, h.phase, h.pool⟩
    rw [hw]
    exact ⟨hv.1, fun _ => rfl⟩
  | @restartStart g₁ r₁ hpc hr hlast =>
    have hg : g₁ = g := by
      have := h.last
      omega
    subst hg
    obtain rfl := Option.some.inj (hr.symm.trans h.run)
    refine ⟨g₁, _, by simpa [State.setRun] using h.last, getElem?_set_self h.run, by simp, ?_, h.phase, h.pool⟩
    exact h.view.restart fun _ => by simp [hpc]
  | parentCancelled => exact ⟨g, r, h.last, h.run, h.rebuilt, h.view, h.phase, h.pool⟩

theorem current_of_reach {s : State size} (h : Reach (step cfg) PublishesWhileCurrent .initial s) :
    ∃ g r, Current s g r :=
  h.invariant_with (I := fun s => ∃ g r, Current s g r) (fun _ hr => base_of_reach hr)
    ⟨0, _, current_initial⟩ fun _ _ _ hb ⟨_, _, hc⟩ hpub hs => current_step hc hb hpub (step_sound hs)

end ArangeTun.Admission
