import ArangeTun.Mux.Lemmas.Step

/-! # Slots of the limiter -/

namespace ArangeTun.Mux

open Go Server Transition State SessionPc

variable {size muxCon : Nat} {max : Int}

/-! ## Who holds what -/

def SessionPc.holds : SessionPc → Bool
  | .took _ | .opening _ | .opened _ _ | .requeue _ | .failing _ => true
  | .sending | .selecting | .popping | .returned => false

def RelayPc.slot : RelayPc → Bool
  | .relaying | .ended | .releasing => true
  | .returned => false

/-- The relay has closed its connection and has not yet called `release`. -/
def RelayPc.closing : RelayPc → Bool
  | .ended | .releasing => true
  | .relaying | .returned => false

namespace State

variable (s : State size muxCon)

def pending : Nat := s.front.localChannel.buf.length + s.sessions.countP (·.pc.holds)

/-- The parties that have added one to `active` and have not taken it back. -/
def slots : Nat := s.acceptors.countP AcceptPc.slot + s.pending + s.relays.countP (·.pc.slot)

/-- The accepted local connections that passed `acquire` and have not been closed. -/
def openConns : Nat := s.acceptors.countP AcceptPc.isOpen + s.pending + s.relays.countP (·.pc = .relaying)

/-- The accept loops between the two additions of an `acquire` that fails. -/
def refusing : Nat := s.acceptors.countP (· = .refusing)

/-- The accept loops between `release` and `Close` of a connection that found the queue full. -/
def dropping : Nat := s.acceptors.countP (· = .dropping)

def closing : Nat := s.relays.countP (·.pc.closing)

/-- No goroutine is between the two statements that count a connection and open or close it. -/
def Quiet : Prop := s.refusing = 0 ∧ s.dropping = 0 ∧ s.closing = 0

end State

theorem countP_slot (l : List AcceptPc) :
    l.countP AcceptPc.slot + l.countP (· = .dropping) = l.countP AcceptPc.isOpen + l.countP (· = .refusing) := by
  -- both sides count the loops that have a connection in hand
  rw [← countP_split (p := fun pc => pc.slot || pc.isOpen) (fun pc => by cases pc <;> rfl),
    ← countP_split (p := fun pc => pc.slot || pc.isOpen) (fun pc => by cases pc <;> rfl)]

theorem countP_relay (l : List Relay) :
    l.countP (·.pc.slot) = l.countP (·.pc = .relaying) + l.countP (·.pc.closing) :=
  countP_split fun x => by cases x.pc <;> rfl

theorem slots_add_dropping (s : State size muxCon) :
    s.slots + s.dropping = s.openConns + s.refusing + s.closing := by
  have hacc := countP_slot s.acceptors
  have hrel := countP_relay s.relays
  simp only [slots, openConns, refusing, dropping, closing]
  omega

/-! ## The slots of a changed state -/

theorem pending_setQueue (s : State size muxCon) (ch : Chan LocalConn size) :
    (s.setQueue ch).pending + s.front.localChannel.buf.length = s.pending + ch.buf.length := by
  simp only [pending, setQueue]
  omega

theorem pending_setSession {s : State size muxCon} {k : Nat} {ss : Session muxCon} (ss' : Session muxCon)
    (hk : s.sessions[k]? = some ss) :
    (s.setSession k ss').pending + ss.pc.holds.toNat = s.pending + ss'.pc.holds.toNat := by
  have := countP_set (p := (·.pc.holds)) (b := ss') hk
  simp only [pending, setSession]
  omega

theorem slots_setSession {s : State size muxCon} {k : Nat} {ss : Session muxCon} (ss' : Session muxCon)
    (hk : s.sessions[k]? = some ss) :
    (s.setSession k ss').slots + ss.pc.holds.toNat = s.slots + ss'.pc.holds.toNat := by
  have := pending_setSession ss' hk
  simp only [slots, setSession] at this ⊢
  omega

theorem slots_setRelay {s : State size muxCon} {r : Nat} {x : Relay} (pc : RelayPc)
    (hx : s.relays[r]? = some x) :
    (s.setRelay r x pc).slots + x.pc.slot.toNat = s.slots + pc.slot.toNat := by
  have := countP_set (p := (·.pc.slot)) (b := { x with pc }) hx
  simp only [slots, pending, setRelay] at this ⊢
  omega

@[simp] theorem leave_pc (ss : Session muxCon) : ss.leave.pc = .returned := rfl

theorem popCounter_pc {ss ss' : Session muxCon} (h : ss.popCounter = some ss') : ss'.pc = ss.pc := by
  unfold Session.popCounter at h
  split at h
  · cases h
    rfl
  · split at h
    · cases h
      rfl
    · cases h

/-! ## Conservation -/

/-- The session has taken a connection that waited longer than 3000 ms. -/
def SessionPc.Expires (now : Nat) : SessionPc → Prop
  | .took c => Expired now c
  | _ => False

instance (now : Nat) : (pc : SessionPc) → Decidable (pc.Expires now)
  | .took c => inferInstanceAs (Decidable (Expired now c))
  | .sending | .selecting | .popping | .opening _ | .opened _ _ | .requeue _ | .failing _ | .returned =>
    isFalse id

/-- No step finds that the connection a session has taken waited longer than 3000 ms. -/
def NoneExpires (s : State size muxCon) : Action → Prop
  | .check k => ∀ ss ∈ s.sessions[k]?, ¬ss.pc.Expires s.now
  | _ => True

instance (s : State size muxCon) : (a : Action) → Decidable (NoneExpires s a)
  | .check k => inferInstanceAs (Decidable (∀ ss ∈ s.sessions[k]?, ¬ss.pc.Expires s.now))
  | .acceptor _ _ | .newSession | .push _ | .sessionDone _ | .take _ | .pop _ | .openStream _ _ | .sendAddr _ _
  | .putBack _ | .relayEnds _ | .relayPops _ | .relayReleases _ | .tick _ | .cancel => isTrue trivial

theorem pending_loop {s : State size muxCon} {k : Nat} {ss ss' : Session muxCon} {a : Action}
    {ch : Chan LocalConn size} (hk : s.sessions[k]? = some ss) (h : Loop s k ss a ch ss')
    (hfresh : a = .check k → ¬ss.pc.Expires s.now) :
    ((s.setQueue ch).setSession k ss').pending = s.pending := by
  have hq := pending_setQueue s ch
  have hs := pending_setSession (s := s.setQueue ch) ss' hk
  suffices hbal : ch.buf.length + ss'.pc.holds.toNat =
      s.front.localChannel.buf.length + ss.pc.holds.toNat by omega
  cases h with
  | expired hpc hx => exact absurd (by simpa [hpc, SessionPc.Expires] using hx) (hfresh rfl)
  | take hpc hr => simp [hpc, holds, Chan.tryRecv_eq_some hr]
  | requeue hpc hsend => simp [hpc, holds, (Chan.trySend_eq_some hsend).2]
  | failed hpc hsend => simp [hpc, holds, (Chan.trySend_eq_some hsend).2]
  | sessionDone hpc => simp [hpc, holds]
  | push hpc _ | fresh hpc _ | pop hpc _ => simp [hpc, holds]
  | opened hpc | openFails hpc | sendFails hpc => simp [hpc, holds]

/-- `active` counts the slots, and passes the limit only by the connections that are being refused. -/
structure Conserved (max : Int) (s : State size muxCon) : Prop where
  active_eq : s.front.active = s.slots
  active_le : s.front.active ≤ max + s.refusing

theorem conserved_initial (hmax : 0 < max) (listeners : Nat) :
    Conserved max (initial listeners : State size muxCon) := by
  have hidle (p : AcceptPc → Bool) (hp : p .idle = false) : (List.replicate listeners .idle).countP p = 0 := by
    simp [hp]
  constructor
  · simp [initial, slots, pending, hidle AcceptPc.slot rfl]
  · simp only [initial]
    omega

theorem conserved_step {s s' : State size muxCon} {a : Action} (hmax : 0 < max) (hinv : Conserved max s)
    (hc : NoneExpires s a) (h : Step max s a s') : Conserved max s' := by
  obtain ⟨heq, hle⟩ := hinv
  cases h with
  | acceptor hj hstep =>
    have hacc := acceptLocalConn_sound hmax hstep
    rename_i j e pc f pc'
    have hslots := hacc.slots
    have hset := countP_set (p := AcceptPc.slot) (b := pc') hj
    have href := countP_set (p := (· = .refusing)) (b := pc') hj
    constructor
    · simp only [slots, pending] at heq ⊢
      omega
    · simp only [refusing] at hle ⊢
      have := hacc.active_le (n := (s.acceptors.set j .idle).countP (· = .refusing)) (by omega)
      have hidle := countP_set (p := (· = .refusing)) (b := .idle) hj
      simp only [reduceCtorEq, decide_false, Bool.toNat_false] at hidle
      omega
  | newSession =>
    refine ⟨?_, hle⟩
    simpa [slots, pending, holds, List.countP_append] using heq
  | loop hk hloop =>
    refine ⟨?_, hle⟩
    have hp := pending_loop hk hloop fun ha => by subst ha; exact hc _ hk
    simp only [slots, hp] at heq ⊢
    exact heq
  | sent hk hpc =>
    refine ⟨?_, hle⟩
    rename_i k ss c i
    have hs := slots_setSession (s := s)
      { ss with pc := .sending, streams := ss.streams.set i ⟨true, false⟩ } hk
    simp only [hpc, holds, Bool.toNat_true, Bool.toNat_false] at hs
    simp only [slots, pending, setSession, countP_concat, RelayPc.slot, Bool.toNat_true]
      at heq hs ⊢
    omega
  | relayEnds hx hss hst hpc =>
    refine ⟨?_, hle⟩
    rename_i r x ss st
    have hr := slots_setRelay .ended hx
    have hs := slots_setSession (s := s.setRelay r x .ended)
      { ss with streams := ss.streams.set x.stream st.close } hss
    simp only [hpc, RelayPc.slot] at hr
    simp only [setSession, setRelay] at hs hr ⊢
    omega
  | relayPops hx hss hpop hpc =>
    refine ⟨?_, hle⟩
    rename_i r x ss ss'
    have hr := slots_setRelay .releasing hx
    have hs := slots_setSession (s := s.setRelay r x .releasing) ss' hss
    simp only [hpc, RelayPc.slot] at hr
    simp only [popCounter_pc hpop, setSession, setRelay] at hs hr ⊢
    omega
  | relayReleases hx hpc =>
    have hr := slots_setRelay .returned hx
    simp only [hpc, RelayPc.slot, Bool.toNat_true, Bool.toNat_false] at hr
    simp only [release, if_neg (Int.not_le.mpr hmax)]
    constructor
    · simp only [slots, pending, setRelay] at hr heq ⊢
      omega
    · simp only [refusing, setRelay] at hle ⊢
      omega
  | tick => exact ⟨heq, hle⟩
  | cancel => exact ⟨heq, hle⟩

theorem conserved_of_reach {listeners : Nat} {s : State size muxCon} (hmax : 0 < max)
    (h : Reach (step max) NoneExpires (initial listeners) s) : Conserved max s :=
  h.invariant (conserved_initial hmax listeners) fun _ _ _ hinv hc hs =>
    conserved_step hmax hinv hc (step_sound hs)

end ArangeTun.Mux
