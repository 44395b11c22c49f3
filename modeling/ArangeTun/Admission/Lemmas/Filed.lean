import ArangeTun.Admission.Lemmas.Step
import ArangeTun.Transition.Table

/-! # Filed connections -/

namespace ArangeTun.Admission

open Go Wire Transition

variable {size : Nat} {cfg : Config}

def TunnelConn.Opened (c : TunnelConn) (nonce : Str) : Prop :=
  (nonce = [] ∧ ∃ token, c.announced = some ⟨SG_Chan, token⟩) ∨
  (nonce ≠ [] ∧ (∃ token, c.announced = some ⟨SG_ChanV2, token⟩) ∧
    ∃ ack, c.ack = some ack ∧ (decodeControlAck ack).nonce = nonce)

def TunnelConn.Sound (c : TunnelConn) : Prop :=
  match c.pc with
  | .claim ann | .answer ann => c.announced = some ann ∧ isControlSignal ann.signal = true
  | .offer nonce => c.Opened nonce
  | .verify payload => c.announced = some ⟨SG_Pool, payload⟩
  | _ => True

def HandshakePc.held : HandshakePc → Option Candidate
  | .received k | .nonceSet k | .published k => some k
  | .waiting | .ended => none

def Run.Keeps (r : Run size) (k : Candidate) : Prop :=
  k ∈ r.handshakeChannel.buf ∨ r.handshake.held = some k

theorem controlAck_opened {c : TunnelConn} {ann : Announcement} {random ack nonce v}
    (ha : c.announced = some ann) (hs : isControlSignal ann.signal = true)
    (h : controlAck ann.signal cfg.token 0 random = some (ack, nonce, v)) :
    TunnelConn.Opened { c with pc := .offer nonce, ack := some ack } nonce := by
  simp only [controlAck] at h
  simp only [isControlSignal, decide_eq_true_eq] at hs
  split at h
  · rename_i hne
    cases h
    refine Or.inl ⟨rfl, ann.payload, ?_⟩
    rw [← hs.resolve_right hne]
    exact ha
  · rename_i heq
    obtain ⟨r, _, he⟩ := Option.map_eq_some_iff.mp h
    cases he
    refine Or.inr ⟨newPoolNonce_ne_nil r, ⟨ann.payload, ?_⟩, _, rfl, ?_⟩
    · rw [← not_not.mp heq]
      exact ha
    · rw [decodeControlAck_encodeControlAck _ _ (length_newPoolNonce r)]

theorem Moves.sound {isSet : Bool} {peer : Option Str} {nonce : Str} {c c' : TunnelConn}
    (h : Moves cfg isSet peer nonce c c') (hs : c.Sound) : c'.Sound := by
  cases h with
  | control hpc hsig => exact ⟨rfl, hsig⟩
  | @pool ann hpc hsig =>
    obtain ⟨signal, payload⟩ := ann
    cases hsig
    rfl
  | claim hpc =>
    simp only [TunnelConn.Sound, hpc] at hs
    exact hs
  | answer hpc hack =>
    simp only [TunnelConn.Sound, hpc] at hs
    exact controlAck_opened hs.1 hs.2 hack
  | _ => trivial

/-- A connection of the run `g` whose goroutine has returned, with the property `P`. -/
def Filed (conns : List TunnelConn) (g i : Nat) (P : TunnelConn → Prop) : Prop :=
  ∃ c, conns[i]? = some c ∧ c.run = g ∧ c.pc = .returned ∧ P c

structure Base (runs : List (Run size)) (conns : List TunnelConn) : Prop where
  sound : ∀ (i : Nat) (c : TunnelConn), conns[i]? = some c →
    c.Sound ∧ ∃ r, runs[c.run]? = some r ∧ r.started = true
  cands : ∀ (g : Nat) (r : Run size), runs[g]? = some r → ∀ k, r.Keeps k →
    Filed conns g k.conn (·.Opened k.nonce)
  pool : ∀ (g : Nat) (r : Run size), runs[g]? = some r → ∀ i ∈ r.tunnelChannel.buf,
    Filed conns g i fun _ => True
  idle : ∀ (g : Nat) (r : Run size), runs[g]? = some r → r.started = false → r.handshake = .waiting

def TunnelConn.Later (c c' : TunnelConn) : Prop :=
  c'.run = c.run ∧ c'.remoteAddr = c.remoteAddr ∧
    (c.pc = .returned → c'.pc = .returned ∧ c'.announced = c.announced ∧ c'.ack = c.ack)

section

variable {isSet : Bool} {peer : Option Str} {nonce : Str} {c c' : TunnelConn} {g i j : Nat}
  {conns : List TunnelConn} {P : TunnelConn → Prop}

theorem Moves.later (h : Moves cfg isSet peer nonce c c') : c.Later c' :=
  ⟨h.run_eq, h.remoteAddr_eq, fun hpc => absurd hpc h.not_returned⟩

theorem TunnelConn.later_done (c : TunnelConn) : c.Later c.done := ⟨rfl, rfl, fun _ => ⟨rfl, rfl, rfl⟩⟩

theorem TunnelConn.later_drop (c : TunnelConn) : c.Later c.drop := ⟨rfl, rfl, fun _ => ⟨rfl, rfl, rfl⟩⟩

theorem TunnelConn.later_closed (c : TunnelConn) : c.Later { c with closed := true } :=
  ⟨rfl, rfl, fun h => ⟨h, rfl, rfl⟩⟩

theorem TunnelConn.Opened.later {n : Str} (hl : c.Later c') (hpc : c.pc = .returned) (h : c.Opened n) :
    c'.Opened n := by
  obtain ⟨_, ha, hk⟩ := hl.2.2 hpc
  simpa only [TunnelConn.Opened, ha, hk] using h

theorem Filed.set (h : Filed conns g j P) (hc : conns[i]? = some c) (hl : c.Later c')
    (hP : c.pc = .returned → P c → P c') : Filed (conns.set i c') g j P := by
  refine exists_set h hc fun hq => ?_
  exact ⟨hl.1.trans hq.1, (hl.2.2 hq.2.1).1, hP hq.2.1 hq.2.2⟩

theorem Filed.concat {d : TunnelConn} (h : Filed conns g j P) : Filed (conns ++ [d]) g j P :=
  exists_concat h

end

section

variable {runs : List (Run size)} {conns : List TunnelConn} {r r' : Run size} {c c' : TunnelConn} {g i : Nat}

theorem Base.setConn (hb : Base runs conns) (hc : conns[i]? = some c) (hl : c.Later c') (hs : c'.Sound) :
    Base runs (conns.set i c') where
  sound := forall_set hb.sound ⟨hs, hl.1 ▸ (hb.sound i c hc).2⟩
  cands g r hr k hk := (hb.cands g r hr k hk).set hc hl (TunnelConn.Opened.later hl)
  pool g r hr j hj := (hb.pool g r hr j hj).set hc hl fun _ h => h
  idle := hb.idle

theorem Base.setRun (hb : Base runs conns) (hr : runs[g]? = some r)
    (hstart : r.started = true → r'.started = true)
    (hkeeps : ∀ k, r'.Keeps k → r.Keeps k ∨ Filed conns g k.conn (·.Opened k.nonce))
    (hpool : ∀ j ∈ r'.tunnelChannel.buf, j ∈ r.tunnelChannel.buf ∨ Filed conns g j fun _ => True)
    (hidle : r'.started = false → r'.handshake = .waiting) : Base (runs.set g r') conns where
  sound i c hc := ⟨(hb.sound i c hc).1, exists_set (hb.sound i c hc).2 hr hstart⟩
  cands := forall_set hb.cands fun k hk => (hkeeps k hk).elim (hb.cands g r hr k) id
  pool := forall_set hb.pool fun j hj => (hpool j hj).elim (hb.pool g r hr j) id
  idle := forall_set hb.idle hidle

theorem Base.setRun_same (hb : Base runs conns) (hr : runs[g]? = some r)
    (hstart : r.started = true → r'.started = true) (hh : r'.handshake = r.handshake)
    (hc : r'.handshakeChannel = r.handshakeChannel) (ht : r'.tunnelChannel = r.tunnelChannel) :
    Base (runs.set g r') conns := by
  refine hb.setRun hr hstart (fun k hk => Or.inl ?_) (fun j hj => Or.inl (ht ▸ hj)) fun h => ?_
  · simpa only [Run.Keeps, hc, hh] using hk
  · refine hh.trans (hb.idle g r hr ?_)
    cases hs : r.started with
    | false => rfl
    | true => rw [hstart hs] at h; cases h

theorem Base.addConn (hb : Base runs conns) (hs : c.Sound) (hr : runs[c.run]? = some r)
    (hstart : r.started = true) : Base runs (conns ++ [c]) where
  sound := forall_concat hb.sound ⟨hs, r, hr, hstart⟩
  cands g r hr k hk := (hb.cands g r hr k hk).concat
  pool g r hr j hj := (hb.pool g r hr j hj).concat
  idle := hb.idle

theorem Base.addRun (hb : Base runs conns) : Base (runs ++ [.make false]) conns where
  sound i c hc := ⟨(hb.sound i c hc).1, exists_concat (hb.sound i c hc).2⟩
  cands := forall_concat hb.cands fun k hk => by
    rcases hk with hk | hk
    · cases hk
    · cases hk
  pool := forall_concat hb.pool fun j hj => by cases hj
  idle := forall_concat hb.idle fun _ => rfl

theorem Base.closeControl {s : State size} (hb : Base s.runs s.conns) :
    Base s.closeControl.runs s.closeControl.conns := by
  unfold State.closeControl
  split
  · exact hb
  · split
    · exact hb
    · rename_i c hc
      exact hb.setConn hc c.later_closed (hb.sound _ c hc).1

end

theorem base_initial : Base (State.initial : State size).runs (State.initial : State size).conns where
  sound i c hc := by simp [State.initial] at hc
  cands := forall_concat (l := []) (by simp) fun k hk => by
    rcases hk with hk | hk
    · cases hk
    · cases hk
  pool := forall_concat (l := []) (by simp) fun j hj => by cases hj
  idle := forall_concat (l := []) (by simp) fun h => by cases h

theorem base_step {s s' : State size} {a : Action} (hb : Base s.runs s.conns) (h : Step cfg s a s') :
    Base s'.runs s'.conns := by
  cases h with
  | accept hr hs =>
    refine hb.addConn ?_ hr hs
    cases cfg.stealth <;> trivial
  | admitTunnelConn hc hm => exact hb.setConn hc hm.later (hm.sound (hb.sound _ _ hc).1)
  | @offerSent i c r nonce ch hc hr hpc hch =>
    have hsound := (hb.sound i c hc).1
    simp only [TunnelConn.Sound, hpc] at hsound
    have hfiled : Filed (s.conns.set i c.done) c.run i (·.Opened nonce) :=
      ⟨c.done, getElem?_set_self hc, rfl, rfl, hsound⟩
    have hb' : Base s.runs (s.conns.set i c.done) := hb.setConn hc c.later_done trivial
    refine hb'.setRun hr id (fun k hk => ?_) (fun j hj => Or.inl hj) (hb.idle _ r hr)
    rcases hk with hk | hk
    · rw [(Chan.trySend_eq_some hch).2, List.mem_append, List.mem_singleton] at hk
      rcases hk with hk | rfl
      · exact Or.inl (Or.inl hk)
      · exact Or.inr hfiled
    · exact Or.inl (Or.inr hk)
  | @deliverSent i c r ch hc hr hpc hch =>
    have hfiled : Filed (s.conns.set i c.done) c.run i fun _ => True :=
      ⟨c.done, getElem?_set_self hc, rfl, rfl, trivial⟩
    have hb' : Base s.runs (s.conns.set i c.done) := hb.setConn hc c.later_done trivial
    refine hb'.setRun hr id (fun k hk => Or.inl hk) (fun j hj => ?_) (hb.idle _ r hr)
    rw [(Chan.trySend_eq_some hch).2, List.mem_append, List.mem_singleton] at hj
    rcases hj with hj | rfl
    · exact Or.inl hj
    · exact Or.inr hfiled
  | @offerFull i c nonce hc hpc => exact hb.setConn hc c.later_drop trivial
  | @deliverFull i c hc hpc => exact hb.setConn hc c.later_drop trivial
  | @take g r i ch hr hch =>
    refine hb.setRun hr id (fun k hk => Or.inl hk) (fun j hj => Or.inl ?_) (hb.idle g r hr)
    rw [Chan.tryRecv_eq_some hch]
    exact List.mem_cons_of_mem i hj
  | @receive g r k ch hr hs hw hch =>
    refine hb.setRun hr id (fun k' hk => Or.inl (Or.inl ?_)) (fun j hj => Or.inl hj) ?_
    · rw [Chan.tryRecv_eq_some hch]
      rcases hk with hk | hk
      · exact List.mem_cons_of_mem k hk
      · cases hk
        exact List.mem_cons_self
    · intro h
      rw [hs] at h
      cases h
  | @setNonce g r k hr hk =>
    refine hb.setRun hr id (fun k' hk' => Or.inl ?_) (fun j hj => Or.inl hj) ?_
    · rcases hk' with hk' | hk'
      · exact Or.inl hk'
      · cases hk'
        exact Or.inr (by rw [hk]; rfl)
    · intro h
      rw [hb.idle g r hr h] at hk
      cases hk
  | @setControl g r k hr hk =>
    refine hb.setRun hr id (fun k' hk' => Or.inl ?_) (fun j hj => Or.inl hj) ?_
    · rcases hk' with hk' | hk'
      · exact Or.inl hk'
      · cases hk'
        exact Or.inr (by rw [hk]; rfl)
    · intro h
      rw [hb.idle g r hr h] at hk
      cases hk
  | @giveUp g r hr hs hw =>
    refine hb.setRun hr id (fun k hk => Or.inl ?_) (fun j hj => Or.inl hj) ?_
    · rcases hk with hk | hk
      · exact Or.inl hk
      · cases hk
    · intro h
      rw [hs] at h
      cases h
  | stopListening hr => exact hb.setRun_same hr id rfl rfl rfl
  | spawn hr => exact hb.setRun_same hr id rfl rfl rfl
  | watcherFails hr => exact hb.setRun_same hr id rfl rfl rfl
  | watcherDone hr => exact hb.setRun_same hr id rfl rfl rfl
  | restartCancel _ hr => exact hb.setRun_same hr id rfl rfl rfl
  | restartStart _ hr _ => exact hb.setRun_same hr (fun _ => rfl) rfl rfl rfl
  | restartClose _ => exact hb.closeControl
  | restartRebuild _ => exact hb.addRun
  | restartCalled _ => exact hb
  | restartSleep _ _ => exact hb
  | restartClear _ => exact hb
  | parentCancelled => exact hb

theorem base_of_reach {C : State size → Action → Prop} {s : State size}
    (h : Reach (step cfg) C .initial s) : Base s.runs s.conns :=
  h.invariant (I := fun s => Base s.runs s.conns) base_initial fun _ _ _ hb _ hs =>
    base_step hb (step_sound hs)

end ArangeTun.Admission
