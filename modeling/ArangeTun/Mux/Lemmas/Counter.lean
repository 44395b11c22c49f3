import ArangeTun.Mux.Lemmas.Step

/-! # Tokens of a mux session -/

namespace ArangeTun.Mux

open Go Server Transition List Option SessionPc State

variable {size muxCon : Nat} {max : Int}

def RelayPc.running : RelayPc → Bool
  | .relaying | .ended => true
  | .releasing | .returned => false

def Relay.runningIn (k : Nat) (x : Relay) : Bool := decide (x.session = k) && x.pc.running

def State.running (s : State size muxCon) (k : Nat) : Nat := s.relays.countP (Relay.runningIn k)

def SessionPc.extra : SessionPc → Nat
  | .sending | .returned => 0
  | .selecting | .took _ | .popping | .opening _ | .opened _ _ | .requeue _ | .failing _ => 1

/-- Every opened stream whose relay was not started is closed, the one that is being opened apart. -/
def Session.StreamsClosed (ss : Session muxCon) : Prop :=
  ∀ (i : Nat) (st : Stream), ss.streams[i]? = some st → st.relayed = false →
    st.closed = true ∨ ∃ c, ss.pc = .opened c i

structure Balanced (running : Nat) (ss : Session muxCon) : Prop where
  tokens : ss.pc ≠ .returned → ss.counter.buf.length = running + ss.pc.extra
  streams : ss.StreamsClosed
  no_requeue : ∀ c, ss.pc ≠ .requeue c

/-! ## One step of the loop -/

theorem Session.StreamsClosed.pc {ss ss' : Session muxCon} (h : ss.StreamsClosed) (hstreams : ss'.streams = ss.streams)
    (hpc : ∀ c i, ss.pc ≠ .opened c i) : ss'.StreamsClosed := by
  intro i st hi hrelayed
  rw [hstreams] at hi
  rcases h i st hi hrelayed with hclosed | ⟨c, hopened⟩
  · exact Or.inl hclosed
  · exact absurd hopened (hpc c i)

theorem Session.StreamsClosed.leave (ss : Session muxCon) : ss.leave.StreamsClosed := by
  intro i st hi _
  simp only [Session.leave, getElem?_map, map_eq_some_iff] at hi
  obtain ⟨st, _, rfl⟩ := hi
  exact Or.inl rfl

theorem Session.StreamsClosed.opened {ss : Session muxCon} {c : LocalConn} (h : ss.StreamsClosed)
    (hpc : ss.pc = .opening c) : Session.StreamsClosed
      { ss with pc := .opened c ss.streams.length, streams := ss.streams ++ [⟨false, false⟩] } := by
  intro i st hi hrelayed
  rcases getElem?_concat_cases hi with hi | ⟨rfl, rfl⟩
  · rcases h i st hi hrelayed with hclosed | ⟨c', hopened⟩
    · exact Or.inl hclosed
    · rw [hpc] at hopened
      cases hopened
  · exact Or.inr ⟨c, rfl⟩

theorem Session.StreamsClosed.sent {ss : Session muxCon} {c : LocalConn} {i : Nat} (h : ss.StreamsClosed)
    (hpc : ss.pc = .opened c i) : Session.StreamsClosed
      { ss with pc := .sending, streams := ss.streams.set i ⟨true, false⟩ } := by
  intro j st hj hrelayed
  rcases getElem?_set_cases hj with ⟨rfl, rfl⟩ | ⟨hne, hj⟩
  · cases hrelayed
  · rcases h j st hj hrelayed with hclosed | ⟨c', hopened⟩
    · exact Or.inl hclosed
    · rw [hpc] at hopened
      cases hopened
      exact absurd rfl hne

theorem Session.StreamsClosed.close {ss : Session muxCon} {st : Stream} (i : Nat) (h : ss.StreamsClosed) :
    Session.StreamsClosed { ss with streams := ss.streams.set i st.close } := by
  intro j x hj hrelayed
  rcases getElem?_set_cases hj with ⟨rfl, rfl⟩ | ⟨_, hj⟩
  · exact Or.inl rfl
  · exact h j x hj hrelayed

theorem balanced_loop {s : State size muxCon} {k n : Nat} {ss ss' : Session muxCon} {a : Action}
    {ch : Chan LocalConn size} (hb : Balanced n ss) (ha : a ≠ .sendAddr k false) (h : Loop s k ss a ch ss') :
    Balanced n ss' := by
  obtain ⟨htokens, hstreams, hrequeue⟩ := hb
  cases h with
  | push hpc hsend =>
    refine ⟨fun _ => ?_, hstreams.pc rfl (by simp [hpc]), by simp⟩
    have := htokens (by simp [hpc])
    simp only [hpc, extra] at this
    simp [(Chan.trySend_eq_some hsend).2, this, extra]
  | pop hpc hrecv =>
    refine ⟨fun _ => ?_, hstreams.pc rfl (by simp [hpc]), by simp⟩
    have := htokens (by simp [hpc])
    simp only [hpc, extra, Chan.tryRecv_eq_some hrecv, length_cons] at this
    simp only [extra]
    omega
  | sessionDone | failed => exact ⟨fun h => absurd rfl h, .leave ss, by simp [Session.leave]⟩
  | sendFails => exact absurd rfl ha
  | requeue hpc => exact absurd hpc (hrequeue _)
  | take hpc | expired hpc | fresh hpc | openFails hpc =>
    refine ⟨fun _ => ?_, hstreams.pc rfl (by simp [hpc]), by simp⟩
    simpa [hpc, extra] using htokens
  | opened hpc =>
    refine ⟨fun _ => ?_, hstreams.opened hpc, by simp⟩
    simpa [hpc, extra] using htokens

theorem running_setRelay {s : State size muxCon} {r k : Nat} {x : Relay} (pc : RelayPc)
    (hx : s.relays[r]? = some x) :
    (s.setRelay r x pc).running k + (x.runningIn k).toNat =
      s.running k + (({ x with pc } : Relay).runningIn k).toNat :=
  countP_set hx

theorem running_setRelay_same {s : State size muxCon} {r k : Nat} {x : Relay} (pc : RelayPc)
    (hx : s.relays[r]? = some x) (hpc : pc.running = x.pc.running) :
    (s.setRelay r x pc).running k = s.running k := by
  have := running_setRelay (k := k) pc hx
  simp only [Relay.runningIn, hpc] at this
  omega

theorem balanced_popCounter {n : Nat} {ss ss' : Session muxCon} (hb : Balanced (n + 1) ss)
    (h : ss.popCounter = some ss') : Balanced n ss' := by
  obtain ⟨htokens, hstreams, hrequeue⟩ := hb
  unfold Session.popCounter at h
  split at h
  · rename_i hrecv
    cases h
    refine ⟨fun hpc => ?_, hstreams, hrequeue⟩
    have := htokens hpc
    simp only [Chan.tryRecv_eq_some hrecv, length_cons] at this
    simp only
    omega
  · split at h
    · rename_i hpc
      cases h
      exact ⟨fun hne => absurd hpc hne, hstreams, hrequeue⟩
    · cases h

/-! ## Runs -/

def SendsSucceed (k : Nat) (_ : State size muxCon) (a : Action) : Prop := a ≠ .sendAddr k false

instance (k : Nat) (s : State size muxCon) (a : Action) : Decidable (SendsSucceed k s a) :=
  inferInstanceAs (Decidable (a ≠ .sendAddr k false))

structure Kept (k : Nat) (s : State size muxCon) : Prop where
  owner : ∀ (r : Nat) (x : Relay), s.relays[r]? = some x → x.session < s.sessions.length
  session : ∀ ss, s.sessions[k]? = some ss → Balanced (s.running k) ss

theorem running_eq_zero {s : State size muxCon} {k : Nat}
    (h : ∀ (r : Nat) (x : Relay), s.relays[r]? = some x → x.session < k) : s.running k = 0 := by
  rw [running, countP_eq_zero]
  intro x hx
  obtain ⟨r, hr⟩ := mem_iff_getElem?.mp hx
  have := h r x hr
  simp only [Relay.runningIn, Bool.and_eq_true, decide_eq_true_eq, not_and]
  omega

theorem kept_initial (k listeners : Nat) : Kept k (initial listeners : State size muxCon) where
  owner := by simp [initial]
  session := by simp [initial]

theorem kept_step {k : Nat} {s s' : State size muxCon} {a : Action} (hinv : Kept k s)
    (hc : SendsSucceed k s a) (h : Step max s a s') : Kept k s' := by
  obtain ⟨howner, hsession⟩ := hinv
  cases h with
  | acceptor | tick | cancel => exact ⟨howner, hsession⟩
  | newSession =>
    constructor
    · intro r x hx
      have := howner r x hx
      simp only [length_append, length_singleton]
      omega
    · intro ss hss
      rcases getElem?_concat_cases hss with hss | ⟨rfl, rfl⟩
      · exact hsession ss hss
      · refine ⟨fun _ => ?_, by intro i st hi; simp at hi, by simp⟩
        exact (running_eq_zero howner).symm
  | loop hk hloop =>
    refine ⟨by simpa [setSession, setQueue] using howner, ?_⟩
    intro ss hss
    rcases getElem?_set_cases hss with ⟨rfl, rfl⟩ | ⟨_, hss⟩
    · exact balanced_loop (hsession _ hk) hc hloop
    · exact hsession ss hss
  | sent hk hpc =>
    rename_i j sj c i
    have hj : j < s.sessions.length := (List.getElem?_eq_some_iff.mp hk).1
    constructor
    · simp only [setSession, length_set]
      exact forall_concat howner hj
    · intro ss hss
      simp only [running, countP_concat]
      rcases getElem?_set_cases hss with ⟨rfl, rfl⟩ | ⟨hne, hss⟩
      · -- the token of the loop becomes the token of the relay
        have hb := hsession _ hk
        refine ⟨fun _ => ?_, hb.streams.sent hpc, by simp⟩
        have := hb.tokens (by simp [hpc])
        simpa [hpc, extra, running, Relay.runningIn, RelayPc.running] using this
      · simpa [running, Relay.runningIn, hne] using hsession ss hss
  | relayEnds hx hss hst hpc =>
    rename_i r x sx st
    constructor
    · simp only [setSession, setRelay, length_set]
      exact forall_set howner (howner r x hx)
    · intro ss hk
      have hrun := running_setRelay_same (k := k) .ended hx (by simp [hpc, RelayPc.running])
      have hb : ∀ ss, s.sessions[k]? = some ss → Balanced ((s.setRelay r x .ended).running k) ss := by
        rwa [hrun]
      rcases getElem?_set_cases hk with ⟨rfl, rfl⟩ | ⟨_, hk⟩
      · obtain ⟨htokens, hstreams, hrequeue⟩ := hb _ hss
        exact ⟨htokens, hstreams.close x.stream, hrequeue⟩
      · exact hb ss hk
  | relayPops hx hss hpop hpc =>
    rename_i r x sx sx'
    have hrun := running_setRelay (k := k) .releasing hx
    constructor
    · simp only [setSession, setRelay, length_set]
      exact forall_set howner (howner r x hx)
    · intro ss hk
      rcases getElem?_set_cases hk with ⟨rfl, rfl⟩ | ⟨hne, hk⟩
      · simp only [Relay.runningIn, hpc, RelayPc.running, decide_true, Bool.true_and, Bool.toNat_true,
          Bool.and_false, Bool.toNat_false] at hrun
        have hb := hsession _ hss
        rw [← Nat.add_zero (s.running x.session), ← hrun] at hb
        exact balanced_popCounter hb hpop
      · simp only [Relay.runningIn, hne, decide_false, Bool.false_and, Nat.add_right_cancel_iff] at hrun
        have hb := hsession ss hk
        rwa [← hrun] at hb
  | relayReleases hx hpc =>
    rename_i r x
    refine ⟨forall_set howner (howner r x hx), ?_⟩
    intro ss hk
    have hrun := running_setRelay_same (k := k) .returned hx (by simp [hpc, RelayPc.running])
    have hb := hsession ss hk
    rwa [← hrun] at hb

theorem kept_of_reach {k listeners : Nat} {s : State size muxCon}
    (h : Reach (step max) (SendsSucceed k) (initial listeners) s) : Kept k s :=
  h.invariant (kept_initial k listeners) fun _ _ _ hinv hc hs => kept_step hinv hc (step_sound hs)

end ArangeTun.Mux
