import ArangeTun.Admission.Model

/-! # What a step can do -/

namespace ArangeTun.Admission

open Go Wire Option

variable {size : Nat} {cfg : Config}

/-! ## One connection -/

inductive Moves (cfg : Config) (isSet : Bool) (peer : Option Str) (nonce : Str) (c : TunnelConn) :
    TunnelConn → Prop
  | drop : c.pc ≠ .returned → (∀ n, c.pc ≠ .offer n) → Moves cfg isSet peer nonce c c.drop
  | stealth : c.pc = .stealth → Moves cfg isSet peer nonce c { c with pc := .checkControl }
  | isSet : c.pc = .checkControl → isSet = true → Moves cfg isSet peer nonce c { c with pc := .checkNonce }
  | read : c.pc = .checkControl ∨ c.pc = .checkNonce →
      Moves cfg isSet peer nonce c { c with pc := .announce }
  | legacy : c.pc = .checkNonce → nonce = [] → Moves cfg isSet peer nonce c { c with pc := .checkPeer }
  | peer : c.pc = .checkPeer → (∀ p, peer = some p → sameHost (some p) (some c.remoteAddr) = true) →
      Moves cfg isSet peer nonce c { c with pc := .deliver }
  | control {ann : Announcement} : c.pc = .announce → isControlSignal ann.signal = true →
      Moves cfg isSet peer nonce c { c with pc := .claim ann, announced := some ann }
  | pool {ann : Announcement} : c.pc = .announce → ann.signal = SG_Pool →
      Moves cfg isSet peer nonce c { c with pc := .verify ann.payload, announced := some ann }
  | claim {ann : Announcement} : c.pc = .claim ann → Moves cfg isSet peer nonce c { c with pc := .answer ann }
  | answer {ann : Announcement} {random ack n v} : c.pc = .answer ann →
      controlAck ann.signal cfg.token 0 random = some (ack, n, v) →
      Moves cfg isSet peer nonce c { c with pc := .offer n, ack := some ack }
  | verified {payload : Str} : c.pc = .verify payload → nonce ≠ [] → payload = nonce →
      Moves cfg isSet peer nonce c { c with pc := .deliver }

theorem next_moves {isSet : Bool} {peer : Option Str} {nonce : Str} {c c' : TunnelConn} {e : Event}
    (h : c.next cfg isSet peer nonce e = some c') : Moves cfg isSet peer nonce c c' := by
  cases e with
  | stealth ok =>
    simp only [TunnelConn.next] at h
    split at h
    · rename_i hpc
      cases ok with
      | true => cases h; exact .stealth hpc
      | false => cases h; exact .drop (by simp [hpc]) (by simp [hpc])
    · cases h
  | announced ann =>
    simp only [TunnelConn.next] at h
    split at h
    · rename_i hpc
      split at h
      · cases h; exact .drop (by simp [hpc]) (by simp [hpc])
      · split at h
        · cases h; exact .control hpc ‹_›
        · split at h
          · cases h; exact .pool hpc ‹_›
          · cases h; exact .drop (by simp [hpc]) (by simp [hpc])
    · cases h
  | answered random sent =>
    simp only [TunnelConn.next] at h
    split at h
    · rename_i ann hpc
      split at h
      · split at h
        · cases h; exact .drop (by simp [hpc]) (by simp [hpc])
        · rename_i hack
          split at h
          · cases h; exact .answer hpc hack
          · cases h; exact .drop (by simp [hpc]) (by simp [hpc])
      · cases h; exact .drop (by simp [hpc]) (by simp [hpc])
    · cases h
  | go =>
    simp only [TunnelConn.next] at h
    split at h
    · rename_i hpc
      cases isSet with
      | true => cases h; exact .isSet hpc rfl
      | false => cases h; exact .read (Or.inl hpc)
    · rename_i hpc
      by_cases hn : nonce = []
      · rw [if_pos hn] at h; cases h; exact .legacy hpc hn
      · rw [if_neg hn] at h; cases h; exact .read (Or.inr hpc)
    · rename_i hpc
      split at h
      · cases h; exact .drop (by simp [hpc]) (by simp [hpc])
      · rename_i hp
        cases h
        refine .peer hpc fun p hpeer => ?_
        rw [hpeer] at hp
        simpa using hp
    · rename_i ann hpc
      cases isSet with
      | true => cases h; exact .drop (by simp [hpc]) (by simp [hpc])
      | false => cases h; exact .claim hpc
    · rename_i payload hpc
      unfold Wire.verify at h
      by_cases hn : nonce = []
      · simp only [hn, ↓reduceIte, Bool.false_eq_true] at h
        cases h
        exact .drop (by simp [hpc]) (by simp [hpc])
      · simp only [hn, ↓reduceIte, decide_eq_true_eq] at h
        split at h
        · cases h; exact .verified hpc hn ‹_›
        · cases h; exact .drop (by simp [hpc]) (by simp [hpc])
    · cases h

section

variable {isSet : Bool} {peer : Option Str} {nonce : Str} {c c' : TunnelConn}

theorem Moves.run_eq (h : Moves cfg isSet peer nonce c c') : c'.run = c.run := by
  cases h <;> rfl

theorem Moves.remoteAddr_eq (h : Moves cfg isSet peer nonce c c') : c'.remoteAddr = c.remoteAddr := by
  cases h <;> rfl

theorem Moves.not_returned (h : Moves cfg isSet peer nonce c c') : c.pc ≠ .returned := by
  cases h with
  | drop h _ => exact h
  | read h => rcases h with h | h <;> simp [h]
  | _ => simp [*]

end

inductive Step (cfg : Config) (s : State size) : Action → State size → Prop
  | accept {g remoteAddr r} : s.runs[g]? = some r → r.started = true →
      Step cfg s (.accept g remoteAddr) { s with conns := s.conns ++
        [⟨g, remoteAddr, if cfg.stealth then .stealth else .checkControl, false, none, none⟩] }
  | stopListening {g r} : s.runs[g]? = some r →
      Step cfg s (.stopListening g) (s.setRun g { r with listening := false })
  | admitTunnelConn {i e c c'} : s.conns[i]? = some c →
      Moves cfg s.controlChannel.isSome s.controlPeer s.poolNonce c c' →
      Step cfg s (.admitTunnelConn i e) (s.setConn i c')
  | offerSent {i c r nonce ch} : s.conns[i]? = some c → s.runs[c.run]? = some r → c.pc = .offer nonce →
      r.handshakeChannel.trySend ⟨i, nonce⟩ = some ch →
      Step cfg s (.offer i) ((s.setConn i c.done).setRun c.run { r with handshakeChannel := ch })
  | offerFull {i c nonce} : s.conns[i]? = some c → c.pc = .offer nonce →
      Step cfg s (.offer i) (s.setConn i c.drop)
  | deliverSent {i c r ch} : s.conns[i]? = some c → s.runs[c.run]? = some r → c.pc = .deliver →
      r.tunnelChannel.trySend i = some ch →
      Step cfg s (.deliver i) ((s.setConn i c.done).setRun c.run { r with tunnelChannel := ch })
  | deliverFull {i c} : s.conns[i]? = some c → c.pc = .deliver →
      Step cfg s (.deliver i) (s.setConn i c.drop)
  | take {g r i ch} : s.runs[g]? = some r → r.tunnelChannel.tryRecv = some (i, ch) →
      Step cfg s (.take g) (s.setRun g { r with tunnelChannel := ch })
  | receive {g r k ch} : s.runs[g]? = some r → r.started = true → r.handshake = .waiting →
      r.handshakeChannel.tryRecv = some (k, ch) →
      Step cfg s (.receive g) (s.setRun g { r with handshakeChannel := ch, handshake := .received k })
  | setNonce {g r k} : s.runs[g]? = some r → r.handshake = .received k →
      Step cfg s (.setNonce g) { s.setRun g { r with handshake := .nonceSet k } with poolNonce := k.nonce }
  | setControl {g r k} : s.runs[g]? = some r → r.handshake = .nonceSet k →
      Step cfg s (.setControl g)
        { s.setRun g { r with handshake := .published k } with controlChannel := some k.conn }
  | giveUp {g r} : s.runs[g]? = some r → r.started = true → r.handshake = .waiting →
      Step cfg s (.giveUp g) (s.setRun g { r with handshake := .ended })
  | spawn {g r n} : s.runs[g]? = some r →
      Step cfg s (.spawn g) (s.setRun g { r with spawned := true, watchers := n })
  | watcherFails {g r} : s.runs[g]? = some r →
      Step cfg s (.watcherFails g) { s.setRun g { r with watchers := r.watchers - 1 } with
        pendingRestarts := s.pendingRestarts + 1 }
  | watcherDone {g r} : s.runs[g]? = some r →
      Step cfg s (.watcherDone g) (s.setRun g { r with watchers := r.watchers - 1 })
  | restartCalled {pc} : pc = s.restart ∨ s.restart = .idle ∧ pc = .cancel →
      Step cfg s .restartCalled { s with pendingRestarts := s.pendingRestarts - 1, restart := pc }
  | restartCancel {g r} : s.restart = .cancel → s.runs[g]? = some r →
      Step cfg s .restart { s.setRun g { r with cancelled := true } with restart := .close }
  | restartClose : s.restart = .close → Step cfg s .restart { s.closeControl with restart := .sleep }
  | restartSleep {pc} : s.restart = .sleep → pc = .idle ∨ pc = .rebuild →
      Step cfg s .restart { s with restart := pc }
  | restartRebuild : s.restart = .rebuild →
      Step cfg s .restart
        { s with runs := s.runs ++ [.make false], controlChannel := none, restart := .clearNonce }
  | restartClear : s.restart = .clearNonce → Step cfg s .restart { s with poolNonce := [], restart := .start }
  | restartStart {g r} : s.restart = .start → s.runs[g]? = some r → g + 1 = s.runs.length →
      Step cfg s .restart { s.setRun g { r with started := true } with restart := .idle }
  | parentCancelled : Step cfg s .parentCancelled { s with parentDone := true }

variable {s s' : State size} {a : Action}

theorem advance_step (h : s.advance = some s') : Step cfg s .restart s' := by
  unfold State.advance at h
  cases hpc : s.restart with
  | idle => simp only [hpc] at h; cases h
  | cancel =>
    simp only [hpc, bind_eq_some_iff, Option.some.injEq] at h
    obtain ⟨r, hr, rfl⟩ := h
    exact .restartCancel hpc hr
  | close => simp only [hpc] at h; cases h; exact .restartClose hpc
  | sleep =>
    simp only [hpc] at h
    cases h
    exact .restartSleep hpc (ite_eq_or_eq _ _ _)
  | rebuild => simp only [hpc] at h; cases h; exact .restartRebuild hpc
  | clearNonce => simp only [hpc] at h; cases h; exact .restartClear hpc
  | start =>
    simp only [hpc, bind_eq_some_iff, Option.some.injEq] at h
    obtain ⟨r, hr, rfl⟩ := h
    have hlt := (List.getElem?_eq_some_iff.mp hr).1
    exact .restartStart hpc hr (by omega)

theorem step_sound (h : step cfg s a = some s') : Step cfg s a s' := by
  cases a with
  | accept g remoteAddr =>
    obtain ⟨r, hr, h⟩ := bind_eq_some_iff.mp h
    obtain ⟨hs, rfl⟩ := Transition.enabled h
    exact .accept hr hs.1
  | stopListening g =>
    obtain ⟨r, hr, h⟩ := bind_eq_some_iff.mp h
    obtain ⟨_, rfl⟩ := Transition.enabled h
    exact .stopListening hr
  | admitTunnelConn i e =>
    obtain ⟨c, hc, h⟩ := bind_eq_some_iff.mp h
    obtain ⟨c', hn, rfl⟩ := map_eq_some_iff.mp h
    exact .admitTunnelConn hc (next_moves hn)
  | offer i =>
    simp only [step, bind_eq_some_iff] at h
    obtain ⟨c, hc, r, hr, h⟩ := h
    split at h
    · rename_i nonce hpc
      cases h
      unfold State.offer
      cases hch : r.handshakeChannel.trySend ⟨i, nonce⟩ with
      | some ch => exact .offerSent hc hr hpc hch
      | none => exact .offerFull hc hpc
    · cases h
  | deliver i =>
    simp only [step, bind_eq_some_iff, ite_none_right_eq_some, Option.some.injEq] at h
    obtain ⟨c, hc, r, hr, hpc, rfl⟩ := h
    unfold State.deliver
    cases hch : r.tunnelChannel.trySend i with
    | some ch => exact .deliverSent hc hr hpc hch
    | none => exact .deliverFull hc hpc
  | take g =>
    obtain ⟨r, hr, h⟩ := bind_eq_some_iff.mp h
    obtain ⟨⟨i, ch⟩, hch, rfl⟩ := map_eq_some_iff.mp h
    exact .take hr hch
  | receive g =>
    simp only [step, bind_eq_some_iff, ite_none_right_eq_some, map_eq_some_iff] at h
    obtain ⟨r, hr, hs, ⟨k, ch⟩, hch, rfl⟩ := h
    exact .receive hr hs.1 hs.2 hch
  | setNonce g =>
    obtain ⟨r, hr, h⟩ := bind_eq_some_iff.mp h
    split at h
    · cases h; exact .setNonce hr ‹_›
    · cases h
  | setControl g =>
    obtain ⟨r, hr, h⟩ := bind_eq_some_iff.mp h
    split at h
    · cases h; exact .setControl hr ‹_›
    · cases h
  | giveUp g =>
    obtain ⟨r, hr, h⟩ := bind_eq_some_iff.mp h
    obtain ⟨hs, rfl⟩ := Transition.enabled h
    exact .giveUp hr hs.1 hs.2.1
  | spawn g =>
    obtain ⟨r, hr, h⟩ := bind_eq_some_iff.mp h
    split at h
    · cases h; exact .spawn hr
    · cases h; exact .spawn hr
    · cases h
  | watcherFails g =>
    obtain ⟨r, hr, h⟩ := bind_eq_some_iff.mp h
    obtain ⟨_, rfl⟩ := Transition.enabled h
    exact .watcherFails hr
  | watcherDone g =>
    obtain ⟨r, hr, h⟩ := bind_eq_some_iff.mp h
    obtain ⟨_, rfl⟩ := Transition.enabled h
    exact .watcherDone hr
  | restartCalled =>
    obtain ⟨_, rfl⟩ := Transition.enabled h
    by_cases hi : s.restart = .idle
    · exact .restartCalled (Or.inr ⟨hi, if_pos hi⟩)
    · exact .restartCalled (Or.inl (if_neg hi))
  | restart => exact advance_step h
  | parentCancelled => cases h; exact .parentCancelled

end ArangeTun.Admission
