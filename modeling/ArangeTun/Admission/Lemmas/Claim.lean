import ArangeTun.Admission.Lemmas.Filed

/-! # Claims to the control channel -/

namespace ArangeTun.Admission

open Go Wire Transition

variable {size : Nat} {cfg : Config}

def Action.offers : Action → Option Nat
  | .offer i => some i
  | _ => none

def State.handshakeOf (s : State size) (i : Nat) : Option HandshakePc :=
  s.conns[i]?.bind fun c => s.runs[c.run]?.map Run.handshake

/-- A candidate is sent to `handshakeChannel` only while `channelHandshake` is waiting for it. -/
def OffersWhileWaiting (s : State size) (a : Action) : Prop :=
  ∀ i ∈ a.offers, s.handshakeOf i = some .waiting

instance (s : State size) (a : Action) : Decidable (OffersWhileWaiting s a) :=
  inferInstanceAs (Decidable (∀ i ∈ a.offers, s.handshakeOf i = some .waiting))

def Kept (runs : List (Run size)) (i : Nat) (c : TunnelConn) : Prop :=
  c.closed = true ∨ (∃ nonce, c.pc = .offer nonce) ∨
    ∃ r, runs[c.run]? = some r ∧ ∃ k, r.Keeps k ∧ k.conn = i

structure Claims (runs : List (Run size)) (conns : List TunnelConn) : Prop where
  kept : ∀ (i : Nat) (c : TunnelConn), conns[i]? = some c → c.ack.isSome = true → Kept runs i c
  emptied : ∀ (g : Nat) (r : Run size), runs[g]? = some r → r.handshake.held.isSome = true →
    r.handshakeChannel.buf = []

theorem Moves.kept {isSet : Bool} {peer : Option Str} {nonce : Str} {c c' : TunnelConn} {i : Nat}
    {runs : List (Run size)} (h : Moves cfg isSet peer nonce c c')
    (hk : c.ack.isSome = true → Kept runs i c) (ha : c'.ack.isSome = true) : Kept runs i c' := by
  have hsame (hpc : ∀ n, c.pc ≠ .offer n) (hr : c'.run = c.run) (hcl : c'.closed = c.closed)
      (hack : c'.ack = c.ack) : Kept runs i c' := by
    rcases hk (hack ▸ ha) with hc | ⟨n, hn⟩ | hrun
    · exact Or.inl (hcl.trans hc)
    · exact absurd hn (hpc n)
    · exact Or.inr (Or.inr (hr ▸ hrun))
  cases h with
  | drop _ _ => exact Or.inl rfl
  | answer _ _ => exact Or.inr (Or.inl ⟨_, rfl⟩)
  | read hpc => exact hsame (by rcases hpc with hpc | hpc <;> simp [hpc]) rfl rfl rfl
  | stealth hpc => exact hsame (by simp [hpc]) rfl rfl rfl
  | isSet hpc _ => exact hsame (by simp [hpc]) rfl rfl rfl
  | legacy hpc _ => exact hsame (by simp [hpc]) rfl rfl rfl
  | peer hpc _ => exact hsame (by simp [hpc]) rfl rfl rfl
  | control hpc _ => exact hsame (by simp [hpc]) rfl rfl rfl
  | pool hpc _ => exact hsame (by simp [hpc]) rfl rfl rfl
  | claim hpc => exact hsame (by simp [hpc]) rfl rfl rfl
  | verified hpc _ _ => exact hsame (by simp [hpc]) rfl rfl rfl

section

variable {runs : List (Run size)} {conns : List TunnelConn} {r r' : Run size} {c c' : TunnelConn} {g i : Nat}

theorem Kept.setRun (h : Kept runs i c) (hr : runs[g]? = some r) (hkeeps : ∀ k, r.Keeps k → r'.Keeps k) :
    Kept (runs.set g r') i c := by
  rcases h with h | h | h
  · exact Or.inl h
  · exact Or.inr (Or.inl h)
  · refine Or.inr (Or.inr (exists_set h hr ?_))
    rintro ⟨k, hk, he⟩
    exact ⟨k, hkeeps k hk, he⟩

theorem Claims.setConn (h : Claims runs conns) (hk : c'.ack.isSome = true → Kept runs i c') :
    Claims runs (conns.set i c') where
  kept := forall_set h.kept hk
  emptied := h.emptied

theorem Claims.setRun (h : Claims runs conns) (hr : runs[g]? = some r)
    (hkeeps : ∀ k, r.Keeps k → r'.Keeps k)
    (hempty : r'.handshake.held.isSome = true → r'.handshakeChannel.buf = []) :
    Claims (runs.set g r') conns where
  kept i c hc ha := (h.kept i c hc ha).setRun hr hkeeps
  emptied := forall_set h.emptied hempty

theorem Claims.setRun_same (h : Claims runs conns) (hr : runs[g]? = some r)
    (hh : r'.handshake.held = r.handshake.held) (hc : r'.handshakeChannel = r.handshakeChannel) :
    Claims (runs.set g r') conns := by
  refine h.setRun hr (fun k hk => ?_) fun hs => ?_
  · simpa only [Run.Keeps, hc, hh] using hk
  · rw [hc]
    exact h.emptied g r hr (hh ▸ hs)

theorem Claims.addConn (h : Claims runs conns) (ha : c.ack = none) : Claims runs (conns ++ [c]) where
  kept := forall_concat h.kept fun hs => by
    rw [ha] at hs
    cases hs
  emptied := h.emptied

theorem Claims.addRun (h : Claims runs conns) : Claims (runs ++ [.make false]) conns where
  kept i c hc ha := by
    rcases h.kept i c hc ha with hk | hk | hk
    · exact Or.inl hk
    · exact Or.inr (Or.inl hk)
    · exact Or.inr (Or.inr (exists_concat hk))
  emptied := forall_concat h.emptied fun hs => by cases hs

theorem Claims.closeControl {s : State size} (h : Claims s.runs s.conns) :
    Claims s.closeControl.runs s.closeControl.conns := by
  unfold State.closeControl
  split
  · exact h
  · split
    · exact h
    · exact h.setConn fun _ => Or.inl rfl

end

theorem claims_initial : Claims (State.initial : State size).runs (State.initial : State size).conns where
  kept i c hc := by simp [State.initial] at hc
  emptied := forall_concat (l := []) (by simp) fun hs => by cases hs

theorem claims_step {s s' : State size} {a : Action} (hi : Claims s.runs s.conns)
    (hoffer : OffersWhileWaiting s a) (h : Step cfg s a s') : Claims s'.runs s'.conns := by
  cases h with
  | accept hr hs => exact hi.addConn rfl
  | admitTunnelConn hc hm => exact hi.setConn (hm.kept (hi.kept _ _ hc))
  | @offerSent i c r nonce ch hc hr hpc hch =>
    have hbuf := (Chan.trySend_eq_some hch).2
    have hwait : r.handshake = .waiting := by
      have := hoffer i rfl
      simpa only [State.handshakeOf, hc, Option.bind_some, hr, Option.map_some, Option.some.injEq] using this
    have hkeeps : ∀ k, r.Keeps k → Run.Keeps { r with handshakeChannel := ch } k := by
      rintro k (hk | hk)
      · exact Or.inl (by rw [hbuf]; exact List.mem_append_left _ hk)
      · exact Or.inr hk
    have hi' : Claims (s.runs.set c.run { r with handshakeChannel := ch }) s.conns :=
      hi.setRun hr hkeeps fun hs => by
        rw [hwait] at hs
        cases hs
    refine hi'.setConn fun _ => Or.inr (Or.inr ⟨_, getElem?_set_self hr, ⟨i, nonce⟩, Or.inl ?_, rfl⟩)
    rw [hbuf]
    exact List.mem_append_right _ List.mem_cons_self
  | offerFull hc hpc => exact hi.setConn fun _ => Or.inl rfl
  | @deliverSent i c r ch hc hr hpc hch =>
    have hi' : Claims (s.runs.set c.run { r with tunnelChannel := ch }) s.conns :=
      hi.setRun_same hr rfl rfl
    refine hi'.setConn fun ha => ?_
    rcases hi'.kept i c hc ha with hk | ⟨n, hn⟩ | hk
    · exact Or.inl hk
    · rw [hpc] at hn
      cases hn
    · exact Or.inr (Or.inr hk)
  | deliverFull hc hpc => exact hi.setConn fun _ => Or.inl rfl
  | take hr hch => exact hi.setRun_same hr rfl rfl
  | @receive g r k ch hr hs hw hch =>
    refine hi.setRun hr (fun k' hk => ?_) fun _ => Chan.tryRecv_one hch
    rcases hk with hk | hk
    · rw [Chan.tryRecv_eq_some hch, List.mem_cons] at hk
      rcases hk with rfl | hk
      · exact Or.inr rfl
      · exact Or.inl hk
    · rw [hw] at hk
      cases hk
  | setNonce hr hk => exact hi.setRun_same hr (by rw [hk]; rfl) rfl
  | setControl hr hk => exact hi.setRun_same hr (by rw [hk]; rfl) rfl
  | giveUp hr hs hw => exact hi.setRun_same hr (by rw [hw]; rfl) rfl
  | stopListening hr => exact hi.setRun_same hr rfl rfl
  | spawn hr => exact hi.setRun_same hr rfl rfl
  | watcherFails hr => exact hi.setRun_same hr rfl rfl
  | watcherDone hr => exact hi.setRun_same hr rfl rfl
  | restartCancel _ hr => exact hi.setRun_same hr rfl rfl
  | restartStart _ hr _ => exact hi.setRun_same hr rfl rfl
  | restartClose _ => exact hi.closeControl
  | restartRebuild _ => exact hi.addRun
  | restartCalled _ => exact hi
  | restartSleep _ _ => exact hi
  | restartClear _ => exact hi
  | parentCancelled => exact hi

theorem claims_of_reach {s : State size} (h : Reach (step cfg) OffersWhileWaiting .initial s) :
    Claims s.runs s.conns :=
  h.invariant (I := fun s => Claims s.runs s.conns) claims_initial fun _ _ _ hi hoffer hs =>
    claims_step hi hoffer (step_sound hs)

end ArangeTun.Admission
