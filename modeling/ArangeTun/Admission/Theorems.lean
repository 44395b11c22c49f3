import ArangeTun.Admission.Lemmas.Claim
import ArangeTun.Admission.Lemmas.Pool

/-! # Control channel and pool -/

namespace ArangeTun.Admission

open Go Wire Transition

variable {size : Nat} {cfg : Config}

/-! ## Claimants of the control channel -/

/-- Once its admission goroutines have returned, every connection a run has answered is its control channel or closed.
-/
def NobodyStranded (s : State size) : Prop :=
  ∀ (g : Nat) (r : Run size) (k : Candidate), s.runs[g]? = some r → r.handshake = .published k →
    (∀ c ∈ s.conns, c.run = g → c.pc = .returned) →
    ∀ (i : Nat) (c : TunnelConn), s.conns[i]? = some c → c.run = g → c.ack.isSome = true →
      i = k.conn ∨ c.closed = true

/-- The property holds in every run in which a candidate is offered only to a handshake that still
waits. -/
theorem nobodyStranded_of_offersWhileWaiting {s : State size}
    (h : Reach (step cfg) OffersWhileWaiting .initial s) : NobodyStranded s := by
  intro g r k hr hp hret i c hc hg ha
  have hclaims := claims_of_reach h
  rcases hclaims.kept i c hc ha with hcl | ⟨n, hn⟩ | ⟨r', hr', k', hk', hi⟩
  · exact Or.inr hcl
  · rw [hret c (List.mem_of_getElem? hc) hg] at hn
    cases hn
  · rw [hg, hr, Option.some.injEq] at hr'
    subst hr'
    have hheld : r.handshake.held = some k := by rw [hp]; rfl
    rcases hk' with hk' | hk'
    · rw [hclaims.emptied g r hr (by rw [hheld]; rfl)] at hk'
      cases hk'
    · rw [hheld, Option.some.injEq] at hk'
      exact Or.inl (by rw [hk', hi])

def claiming (i : Nat) (signal : UInt8) (token : Str) : List Action :=
  [.admitTunnelConn i .go, .admitTunnelConn i (.announced (some ⟨signal, token⟩)), .admitTunnelConn i .go]

def answering (i : Nat) (b : UInt8) : Action :=
  .admitTunnelConn i (.answered (some (Vector.replicate 32 b)) true)

def twoClaimants : List Action :=
  [.accept 0 (lit "1.1.1.1:1"), .accept 0 (lit "2.2.2.2:2")] ++ claiming 0 SG_ChanV2 (lit "t") ++
    claiming 1 SG_ChanV2 (lit "t") ++
    [answering 0 0, answering 1 1, .offer 0, .offer 1, .receive 0, .setNonce 0, .setControl 0]

theorem nobodyStranded_twoClaimants :
    ∃ s : State 1, Reach (step ⟨lit "t", false⟩) OffersWhileWaiting .initial s ∧
      s.controlChannel = some 0 ∧ NobodyStranded s := by
  have hrun : ∃ s : State 1, Reach (step ⟨lit "t", false⟩) OffersWhileWaiting .initial s ∧
      s.controlChannel = some 0 :=
    exists_reach twoClaimants (by decide +kernel)
  obtain ⟨s, hr, hctl⟩ := hrun
  exact ⟨s, hr, hctl, nobodyStranded_of_offersWhileWaiting hr⟩

def lateClaimant : List Action :=
  [.accept 0 (lit "1.1.1.1:1"), .accept 0 (lit "2.2.2.2:2")] ++ claiming 0 SG_ChanV2 (lit "t") ++
    claiming 1 SG_ChanV2 (lit "t") ++
    [answering 0 0, .offer 0, .receive 0, answering 1 1, .offer 1, .setNonce 0, .setControl 0]

theorem stranded_lateClaimant :
    ∃ s : State 1, run (step ⟨lit "t", false⟩) .initial lateClaimant = some s ∧ ¬ NobodyStranded s := by
  have hrun : ∃ s : State 1, run (step ⟨lit "t", false⟩) .initial lateClaimant = some s ∧
      s.runs[0]?.map Run.handshake = some (.published ⟨0, newPoolNonce (Vector.replicate 32 0)⟩) ∧
      (∀ c ∈ s.conns, c.run = 0 → c.pc = .returned) ∧
      s.conns[1]?.map (fun c => (c.run, c.ack.isSome, c.closed)) = some (0, true, false) :=
    exists_run (by decide +kernel)
  obtain ⟨s, hs, hpublished, hreturned, hone⟩ := hrun
  refine ⟨s, hs, fun h => ?_⟩
  obtain ⟨r, hr, hhandshake⟩ := Option.map_eq_some_iff.mp hpublished
  obtain ⟨c, hc, hfields⟩ := Option.map_eq_some_iff.mp hone
  simp only [Prod.mk.injEq] at hfields
  obtain ⟨hcrun, hack, hopen⟩ := hfields
  rcases h 0 r _ hr hhandshake hreturned 1 c hc hcrun hack with hfirst | hclosed
  · cases hfirst
  · rw [hopen] at hclosed
    cases hclosed

/-! ## Connections of the pool -/

/-- The connection showed the nonce that the control channel was sent, or the control channel was opened
with the legacy signal and has the same host. -/
def AuthorisedBy (control c : TunnelConn) : Prop :=
  ((∃ token, control.announced = some ⟨SG_ChanV2, token⟩) ∧
    ∃ ack, control.ack = some ack ∧ c.announced = some ⟨SG_Pool, (decodeControlAck ack).nonce⟩) ∨
  ((∃ token, control.announced = some ⟨SG_Chan, token⟩) ∧
    sameHost (some control.remoteAddr) (some c.remoteAddr) = true)

/-- Every connection in the pool of the run whose control channel is published is authorised by it. -/
def PoolAuthorised (s : State size) : Prop :=
  ∀ k, s.controlChannel = some k → ∃ control r, s.conns[k]? = some control ∧
    s.runs[control.run]? = some r ∧
    ∀ i ∈ r.tunnelChannel.buf, ∃ c, s.conns[i]? = some c ∧ AuthorisedBy control c

/-- The property holds in every run in which a handshake publishes only while its run is the current
one. -/
theorem poolAuthorised_of_publishesWhileCurrent {s : State size}
    (h : Reach (step cfg) PublishesWhileCurrent .initial s) : PoolAuthorised s := by
  intro k hk
  have hb := base_of_reach h
  obtain ⟨g, r, hcur⟩ := current_of_reach h
  obtain ⟨k', hpub, rfl⟩ := hcur.published hk
  have hheld : r.handshake.held = some k' := by rw [hpub]; rfl
  obtain ⟨control, hcontrol, hrun, _, hopened⟩ := hcur.candidate hb hheld
  refine ⟨control, r, hcontrol, hrun ▸ hcur.run, fun i hi => ?_⟩
  obtain ⟨c, hc, _, _, k'', hk'', kc, hkc, hadm⟩ := hcur.pool i hi
  rw [hheld, Option.some.injEq] at hk''
  subst hk''
  rw [hcontrol, Option.some.injEq] at hkc
  subst hkc
  refine ⟨c, hc, ?_⟩
  rcases hopened with ⟨hn, hlegacy⟩ | ⟨hn, hv2, ack, hack, hnonce⟩
  · rcases hadm with ⟨hn', _⟩ | ⟨_, hsame⟩
    · exact absurd hn hn'
    · exact Or.inr ⟨hlegacy, hsame⟩
  · rcases hadm with ⟨_, hann⟩ | ⟨hn', _⟩
    · exact Or.inl ⟨hv2, ack, hack, by rw [hnonce]; exact hann⟩
    · exact absurd hn' hn

def establish (g i : Nat) (b : UInt8) : List Action :=
  claiming i SG_ChanV2 (lit "t") ++ [answering i b, .offer i, .receive g, .setNonce g, .setControl g]

def onePoolConn : List Action :=
  [.accept 0 (lit "1.1.1.1:1"), .accept 0 (lit "2.2.2.2:2")] ++ establish 0 0 7 ++
    [.admitTunnelConn 1 .go, .admitTunnelConn 1 .go,
      .admitTunnelConn 1 (.announced (some ⟨SG_Pool, newPoolNonce (Vector.replicate 32 7)⟩)),
      .admitTunnelConn 1 .go, .deliver 1]

theorem poolAuthorised_onePoolConn :
    ∃ s : State 1, Reach (step ⟨lit "t", false⟩) PublishesWhileCurrent .initial s ∧
      s.runs.map (·.tunnelChannel.buf) = [[1]] ∧ PoolAuthorised s := by
  have hrun : ∃ s : State 1, Reach (step ⟨lit "t", false⟩) PublishesWhileCurrent .initial s ∧
      s.runs.map (·.tunnelChannel.buf) = [[1]] :=
    exists_reach onePoolConn (by decide +kernel)
  obtain ⟨s, hr, hpool⟩ := hrun
  exact ⟨s, hr, hpool, poolAuthorised_of_publishesWhileCurrent hr⟩

def restarting : List Action := .restartCalled :: List.replicate 6 .restart

/-- Two calls of `Restart` leave a control channel beside a cleared nonce, and a connection that says nothing is let in.
-/
def lateRestart : List Action :=
  [.accept 0 (lit "1.1.1.1:1")] ++ establish 0 0 0 ++ [.spawn 0, .watcherFails 0, .watcherFails 0] ++
    restarting ++ [.accept 1 (lit "1.1.1.1:2"), .accept 1 (lit "1.1.1.1:3")] ++
    claiming 1 SG_ChanV2 (lit "t") ++ [answering 1 1, .offer 1, .receive 1, .setNonce 1] ++ restarting ++
    [.setControl 1, .admitTunnelConn 2 .go, .admitTunnelConn 2 .go, .admitTunnelConn 2 .go, .deliver 2]

theorem unauthorised_lateRestart :
    ∃ s : State 1, run (step ⟨lit "t", false⟩) .initial lateRestart = some s ∧ ¬ PoolAuthorised s := by
  have hrun : ∃ s : State 1, run (step ⟨lit "t", false⟩) .initial lateRestart = some s ∧
      s.controlChannel = some 1 ∧
      s.conns[1]?.map (fun c => (c.run, c.announced)) = some (1, some ⟨SG_ChanV2, lit "t"⟩) ∧
      s.runs[1]?.map (·.tunnelChannel.buf) = some [2] ∧
      s.conns[2]?.map TunnelConn.announced = some none :=
    exists_run (by decide +kernel)
  obtain ⟨s, hs, hctl, hone, hbuf, htwo⟩ := hrun
  refine ⟨s, hs, fun h => ?_⟩
  obtain ⟨control, r, hcontrol, hr, hpool⟩ := h 1 hctl
  rw [hcontrol, Option.map_some, Option.some.injEq, Prod.mk.injEq] at hone
  rw [hone.1] at hr
  rw [hr, Option.map_some, Option.some.injEq] at hbuf
  obtain ⟨c, hc, hauth⟩ := hpool 2 (by rw [hbuf]; exact List.mem_cons_self)
  rw [hc, Option.map_some, Option.some.injEq] at htwo
  rcases hauth with ⟨_, ack, _, hann⟩ | ⟨⟨token, hlegacy⟩, _⟩
  · rw [htwo] at hann
    cases hann
  · rw [hone.2, Option.some.injEq, Announcement.mk.injEq] at hlegacy
    exact absurd hlegacy.1 (by decide)

end ArangeTun.Admission
