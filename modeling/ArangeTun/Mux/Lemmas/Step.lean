import ArangeTun.Mux.Model

/-! # What a step of a mux server can do -/

namespace ArangeTun.Mux

open Go Server Option

variable {size muxCon : Nat} {max : Int}

/-- A step of `handleSession` in the session `k`, which is `ss` before it: the queue and the session after it. -/
inductive Loop (s : State size muxCon) (k : Nat) (ss : Session muxCon) :
    Action → Chan LocalConn size → Session muxCon → Prop
  | push {counter} : ss.pc = .sending → ss.counter.trySend () = some counter →
      Loop s k ss (.push k) s.front.localChannel { ss with counter, pc := .selecting }
  | sessionDone : ss.pc = .selecting → Loop s k ss (.sessionDone k) s.front.localChannel ss.leave
  | take {c ch} : ss.pc = .selecting → s.front.localChannel.tryRecv = some (c, ch) →
      Loop s k ss (.take k) ch { ss with pc := .took c }
  | expired {c} : ss.pc = .took c → Expired s.now c →
      Loop s k ss (.check k) s.front.localChannel { ss with pc := .popping }
  | fresh {c} : ss.pc = .took c → ¬Expired s.now c →
      Loop s k ss (.check k) s.front.localChannel { ss with pc := .opening c }
  | pop {counter} : ss.pc = .popping → ss.counter.tryRecv = some ((), counter) →
      Loop s k ss (.pop k) s.front.localChannel { ss with counter, pc := .sending }
  | opened {c} : ss.pc = .opening c → Loop s k ss (.openStream k true) s.front.localChannel
      { ss with pc := .opened c ss.streams.length, streams := ss.streams ++ [⟨false, false⟩] }
  | openFails {c} : ss.pc = .opening c →
      Loop s k ss (.openStream k false) s.front.localChannel { ss with pc := .failing c }
  | sendFails {c i} : ss.pc = .opened c i →
      Loop s k ss (.sendAddr k false) s.front.localChannel { ss with pc := .requeue c }
  | requeue {c ch} : ss.pc = .requeue c → s.front.localChannel.trySend c = some ch →
      Loop s k ss (.putBack k) ch { ss with pc := .sending }
  | failed {c ch} : ss.pc = .failing c → s.front.localChannel.trySend c = some ch →
      Loop s k ss (.putBack k) ch ss.leave

inductive Step (max : Int) (s : State size muxCon) : Action → State size muxCon → Prop
  | acceptor {j e pc f pc'} : s.acceptors[j]? = some pc →
      acceptLocalConn max s.now s.cancelled s.front pc e = some (f, pc') →
      Step max s (.acceptor j e) { s with front := f, acceptors := s.acceptors.set j pc' }
  | newSession : Step max s .newSession { s with sessions := s.sessions ++ [⟨.sending, .make, []⟩] }
  | loop {a k ss ch ss'} : s.sessions[k]? = some ss → Loop s k ss a ch ss' →
      Step max s a ((s.setQueue ch).setSession k ss')
  | sent {k ss c i} : s.sessions[k]? = some ss → ss.pc = .opened c i →
      Step max s (.sendAddr k true)
        { s.setSession k { ss with pc := .sending, streams := ss.streams.set i ⟨true, false⟩ } with
          relays := s.relays ++ [⟨k, i, .relaying⟩] }
  | relayEnds {r x ss st} : s.relays[r]? = some x → s.sessions[x.session]? = some ss →
      ss.streams[x.stream]? = some st → x.pc = .relaying →
      Step max s (.relayEnds r)
        ((s.setRelay r x .ended).setSession x.session { ss with streams := ss.streams.set x.stream st.close })
  | relayPops {r x ss ss'} : s.relays[r]? = some x → s.sessions[x.session]? = some ss →
      ss.popCounter = some ss' → x.pc = .ended →
      Step max s (.relayPops r) ((s.setRelay r x .releasing).setSession x.session ss')
  | relayReleases {r x} : s.relays[r]? = some x → x.pc = .releasing →
      Step max s (.relayReleases r)
        { s.setRelay r x .returned with front := { s.front with active := release max s.front.active } }
  | tick {ms} : Step max s (.tick ms) { s with now := s.now + ms }
  | cancel : Step max s .cancel { s with cancelled := true }

theorem step_sound {s s' : State size muxCon} {a : Action} (h : step max s a = some s') : Step max s a s' := by
  cases a with
  | acceptor j e =>
    obtain ⟨pc, hj, h⟩ := bind_eq_some_iff.mp h
    obtain ⟨⟨f, pc'⟩, hstep, h⟩ := bind_eq_some_iff.mp h
    cases h
    exact .acceptor hj hstep
  | newSession =>
    cases h
    exact .newSession
  | push k =>
    simp only [step, handleSession, bind_eq_bind, bind_eq_some_iff] at h
    obtain ⟨ss, hk, h⟩ := h
    split at h
    · obtain ⟨counter, hc, rfl⟩ := map_eq_some_iff.mp h
      exact .loop hk (.push ‹_› hc)
    · cases h
  | sessionDone k =>
    simp only [step, handleSession, bind_eq_bind, bind_eq_some_iff] at h
    obtain ⟨ss, hk, h⟩ := h
    split at h
    · split at h
      · cases h
        exact .loop hk (.sessionDone ‹_›)
      · cases h
    · cases h
  | take k =>
    simp only [step, handleSession, bind_eq_bind, bind_eq_some_iff] at h
    obtain ⟨ss, hk, h⟩ := h
    split at h
    · obtain ⟨⟨c, ch⟩, hr, rfl⟩ := map_eq_some_iff.mp h
      exact .loop hk (.take ‹_› hr)
    · cases h
  | check k =>
    simp only [step, handleSession, bind_eq_bind, bind_eq_some_iff] at h
    obtain ⟨ss, hk, h⟩ := h
    split at h
    · cases h
      split
      · exact .loop hk (.expired ‹_› ‹_›)
      · exact .loop hk (.fresh ‹_› ‹_›)
    · cases h
  | pop k =>
    simp only [step, handleSession, bind_eq_bind, bind_eq_some_iff] at h
    obtain ⟨ss, hk, h⟩ := h
    split at h
    · obtain ⟨⟨_, counter⟩, hr, rfl⟩ := map_eq_some_iff.mp h
      exact .loop hk (.pop ‹_› hr)
    · cases h
  | openStream k ok =>
    simp only [step, handleSession, bind_eq_bind, bind_eq_some_iff] at h
    obtain ⟨ss, hk, h⟩ := h
    split at h
    · cases h
      cases ok with
      | true => exact .loop hk (.opened ‹_›)
      | false => exact .loop hk (.openFails ‹_›)
    · cases h
  | sendAddr k ok =>
    simp only [step, handleSession, bind_eq_bind, bind_eq_some_iff] at h
    obtain ⟨ss, hk, h⟩ := h
    split at h
    · cases ok with
      | true => cases h; exact .sent hk ‹_›
      | false => cases h; exact .loop hk (.sendFails ‹_›)
    · cases h
  | putBack k =>
    simp only [step, handleSession, bind_eq_bind, bind_eq_some_iff] at h
    obtain ⟨ss, hk, h⟩ := h
    split at h
    · obtain ⟨ch, hs, rfl⟩ := map_eq_some_iff.mp h
      exact .loop hk (.requeue ‹_› hs)
    · obtain ⟨ch, hs, rfl⟩ := map_eq_some_iff.mp h
      exact .loop hk (.failed ‹_› hs)
    · cases h
  | relayEnds r =>
    simp only [step, bind_eq_bind, bind_eq_some_iff, ite_none_right_eq_some,
      Option.some.injEq] at h
    obtain ⟨x, hx, ss, hss, st, hst, hpc, rfl⟩ := h
    exact .relayEnds hx hss hst hpc
  | relayPops r =>
    simp only [step, bind_eq_bind, bind_eq_some_iff, ite_none_right_eq_some,
      Option.some.injEq] at h
    obtain ⟨x, hx, ss, hss, ss', hpop, hpc, rfl⟩ := h
    exact .relayPops hx hss hpop hpc
  | relayReleases r =>
    obtain ⟨x, hx, h⟩ := bind_eq_some_iff.mp h
    obtain ⟨hpc, rfl⟩ := Transition.enabled h
    exact .relayReleases hx hpc
  | tick ms =>
    cases h
    exact .tick
  | cancel =>
    cases h
    exact .cancel

end ArangeTun.Mux
