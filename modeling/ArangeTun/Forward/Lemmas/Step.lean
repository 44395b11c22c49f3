import ArangeTun.Forward.Model

/-! # What a step of the plain TCP server can do -/

namespace ArangeTun.Forward

open Go Server Transition Option

variable {size : Nat} {max : Int}

inductive Loop (now : Nat) (f : Front size) (relays : List RelayPc) :
    LoopPc → LoopEvent → Front size → List RelayPc → LoopPc → Prop
  | done : Loop now f relays .waiting .done f relays (.returned none)
  | lost {c} : Loop now f relays (.pairing c) .done f relays (.returned (some c))
  | take {c ch} : f.localChannel.tryRecv = some (c, ch) →
      Loop now f relays .waiting .take { f with localChannel := ch } relays (.holding c)
  | expired {c} : Expired now c → Loop now f relays (.holding c) .check f relays .releasing
  | fresh {c} : ¬Expired now c → Loop now f relays (.holding c) .check f relays (.pairing c)
  | released : Loop now f relays .releasing .release { f with active := f.active - 1 } relays .waiting
  | paired {c} : Loop now f relays (.pairing c) (.pair true) f (relays ++ [.relaying]) .waiting
  | unpaired {c} : Loop now f relays (.pairing c) (.pair false) f relays (.holding c)

theorem handleLoop_sound {now : Nat} {done : Bool} {f f' : Front size} {relays relays' : List RelayPc}
    {pc pc' : LoopPc} {e : LoopEvent} (hmax : 0 < max)
    (h : handleLoop max now done f relays pc e = some (f', relays', pc')) :
    Loop now f relays pc e f' relays' pc' := by
  cases e with
  | done =>
    simp only [handleLoop] at h
    split at h
    · split at h
      · cases h
        exact .done
      · cases h
    · split at h
      · cases h
        exact .lost
      · cases h
    · cases h
  | take =>
    simp only [handleLoop] at h
    split at h
    · obtain ⟨⟨c, ch⟩, hr, h⟩ := map_eq_some_iff.mp h
      cases h
      exact .take hr
    · cases h
  | check =>
    simp only [handleLoop] at h
    split at h
    · cases h
      split
      · exact .expired ‹_›
      · exact .fresh ‹_›
    · cases h
  | release =>
    simp only [handleLoop, Server.release, if_neg (Int.not_le.mpr hmax)] at h
    split at h
    · cases h
      exact .released
    · cases h
  | pair ok =>
    simp only [handleLoop] at h
    split at h
    · cases ok with
      | true => cases h; exact .paired
      | false => cases h; exact .unpaired
    · cases h

inductive Step (max : Int) (s : State size) : Action → State size → Prop
  | start {listeners numCPU} :
      Step max s (.start listeners numCPU) { s with runs := s.runs ++ [newRun listeners numCPU] }
  | cancel {r run} : s.runs[r]? = some run →
      Step max s (.cancel r) (s.put r (s.front run) { run with cancelled := true })
  | acceptor {r j e run pc f pc'} : s.runs[r]? = some run → run.acceptors[j]? = some pc →
      acceptLocalConn max s.now run.cancelled (s.front run) pc e = some (f, pc') →
      Step max s (.acceptor r j e) (s.put r f { run with acceptors := run.acceptors.set j pc' })
  | loop {r i e run pc f relays pc'} : s.runs[r]? = some run → run.loops[i]? = some pc →
      Loop s.now (s.front run) run.relays pc e f relays pc' →
      Step max s (.loop r i e) (s.put r f { run with relays, loops := run.loops.set i pc' })
  | relayEnds {r q run} : s.runs[r]? = some run → run.relays[q]? = some .relaying →
      Step max s (.relayEnds r q) (s.put r (s.front run) { run with relays := run.relays.set q .ended })
  | relayReleases {r q run} : s.runs[r]? = some run → run.relays[q]? = some .ended →
      Step max s (.relayReleases r q)
        (s.put r ⟨s.active - 1, run.localChannel⟩ { run with relays := run.relays.set q .returned })
  | tick {ms} : Step max s (.tick ms) { s with now := s.now + ms }

theorem step_sound {s s' : State size} {a : Action} (hmax : 0 < max) (h : step max s a = some s') :
    Step max s a s' := by
  cases a with
  | start listeners numCPU =>
    obtain ⟨-, rfl⟩ := enabled h
    exact .start
  | cancel r =>
    obtain ⟨run, hr, h⟩ := bind_eq_some_iff.mp h
    cases h
    exact .cancel hr
  | acceptor r j e =>
    simp only [step, bind_eq_bind, bind_eq_some_iff, Option.some.injEq] at h
    obtain ⟨run, hr, pc, hj, ⟨f, pc'⟩, hstep, rfl⟩ := h
    exact .acceptor hr hj hstep
  | loop r i e =>
    simp only [step, bind_eq_bind, bind_eq_some_iff, Option.some.injEq] at h
    obtain ⟨run, hr, pc, hi, ⟨f, relays, pc'⟩, hstep, rfl⟩ := h
    exact .loop hr hi (handleLoop_sound hmax hstep)
  | relayEnds r q =>
    simp only [step, bind_eq_bind, bind_eq_some_iff, ite_none_right_eq_some,
      Option.some.injEq] at h
    obtain ⟨run, hr, pc, hq, rfl, rfl⟩ := h
    exact .relayEnds hr hq
  | relayReleases r q =>
    simp only [step, release, if_neg (Int.not_le.mpr hmax), bind_eq_bind, bind_eq_some_iff,
      ite_none_right_eq_some, Option.some.injEq] at h
    obtain ⟨run, hr, pc, hq, rfl, rfl⟩ := h
    exact .relayReleases hr hq
  | tick ms =>
    cases h
    exact .tick

end ArangeTun.Forward
