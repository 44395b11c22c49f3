import ArangeTun.Mux.Lemmas.Slots
import ArangeTun.Mux.Lemmas.Counter

/-! # What a mux server keeps -/

namespace ArangeTun.Mux

open Go Server Transition

variable {size muxCon : Nat}

/-! ## The connection limit -/

/-- `active` is the number of open connections, up to the goroutines between counting and opening or closing one. -/
structure SlotsConserved (maxConnections : Nat) (s : State size muxCon) : Prop where
  accounts : s.front.active + s.dropping = s.openConns + s.refusing + s.closing
  exact_of_quiet : s.Quiet → s.front.active = s.openConns
  refuses_at_limit : ∀ j s', step (maxConns maxConnections) s (.acceptor j .accept) = some s' →
    s'.acceptors[j]? = some .refusing →
      maxConnections + s.dropping ≤ s.openConns + s.refusing + s.closing ∧
        (s.Quiet → s.openConns = maxConnections)

theorem le_active_of_refusing {max : Int} {s s' : State size muxCon} {j : Nat} (hmax : 0 < max)
    (h : step max s (.acceptor j .accept) = some s') (hj : s'.acceptors[j]? = some .refusing) :
    max ≤ s.front.active := by
  cases step_sound h with
  | acceptor hpc hstep =>
    simp only [getElem?_set_self hpc, Option.some.injEq] at hj
    subst hj
    cases acceptLocalConn_sound hmax hstep with
    | refused hlt => omega
  | loop _ hloop => cases hloop

theorem slotsConserved_of_noneExpires {maxConnections listeners : Nat} {s : State size muxCon}
    (hpos : 0 < maxConnections) (hlt : maxConnections + listeners < 2 ^ 31)
    (h : Reach (step (maxConns maxConnections)) NoneExpires (initial listeners) s) :
    SlotsConserved maxConnections s := by
  have hlt : maxConnections < 2 ^ 31 := by omega
  have hmax := maxConns_pos hpos hlt
  obtain ⟨heq, hle⟩ := conserved_of_reach hmax h
  have hsplit := slots_add_dropping s
  refine ⟨by omega, ?_, ?_⟩
  · rintro ⟨hrefusing, hdropping, hclosing⟩
    omega
  · intro j s' hstep hj
    have hge := le_active_of_refusing hmax hstep hj
    rw [maxConns_of_lt hlt] at hge hle
    refine ⟨by omega, ?_⟩
    rintro ⟨hrefusing, hdropping, hclosing⟩
    omega

instance (s : State size muxCon) : Decidable s.Quiet :=
  inferInstanceAs (Decidable (s.refusing = 0 ∧ s.dropping = 0 ∧ s.closing = 0))

def oneRelay : List Action :=
  [.newSession, .push 0, .acceptor 0 .accept, .acceptor 0 .enqueue, .take 0, .check 0, .openStream 0 true,
    .sendAddr 0 true]

theorem slotsConserved_oneRelay : ∃ s : State 1 1, Reach (step (maxConns 1)) NoneExpires (initial 1) s ∧
    s.openConns = 1 ∧ SlotsConserved 1 s := by
  have hrun : ∃ s : State 1 1, Reach (step (maxConns 1)) NoneExpires (initial 1) s ∧ s.openConns = 1 :=
    exists_reach oneRelay (by decide +kernel)
  obtain ⟨s, hr, hopen⟩ := hrun
  exact ⟨s, hr, hopen, slotsConserved_of_noneExpires (by decide) (by decide) hr⟩

def timedOut : List Action :=
  [.acceptor 0 .accept, .acceptor 0 .enqueue, .tick 4000, .newSession, .push 0, .take 0, .check 0, .pop 0]

/-- The connection that timed out is closed, and its slot is never given back: the next one is refused. -/
theorem slot_lost_on_timeout : ∃ s : State 1 1, Reach (step (maxConns 1)) Any (initial 1) s ∧ s.Quiet ∧
    s.front.active = 1 ∧ s.openConns = 0 ∧
    ∃ s' ∈ step (maxConns 1) s (.acceptor 0 .accept), s'.acceptors[0]? = some .refusing :=
  exists_reach timedOut (by decide +kernel)

/-- Whenever the session `k` is at the send into `counter`, the tokens are those of its running relays, and
no stream is open without a relay. -/
def CapacityKept (k : Nat) (s : State size muxCon) : Prop :=
  ∀ ss, s.sessions[k]? = some ss → ss.pc = .sending →
    ss.counter.buf.length = s.running k ∧ ∀ st ∈ ss.streams, st.relayed = false → st.closed = true

theorem capacityKept_of_sendsSucceed {max : Int} {k listeners : Nat} {s : State size muxCon}
    (h : Reach (step max) (SendsSucceed k) (initial listeners) s) : CapacityKept k s := by
  intro ss hss hpc
  obtain ⟨htokens, hstreams, -⟩ := (kept_of_reach h).session ss hss
  constructor
  · simpa [hpc, SessionPc.extra] using htokens
  · intro st hst hrelayed
    obtain ⟨i, hi⟩ := List.mem_iff_getElem?.mp hst
    rcases hstreams i st hi hrelayed with hclosed | ⟨c, hopened⟩
    · exact hclosed
    · rw [hpc] at hopened
      cases hopened

theorem capacityKept_oneRelay : ∃ s : State 1 1, Reach (step 0) (SendsSucceed 0) (initial 1) s ∧
    s.running 0 = 1 ∧ CapacityKept 0 s := by
  have hrun : ∃ s : State 1 1, Reach (step 0) (SendsSucceed 0) (initial 1) s ∧ s.running 0 = 1 :=
    exists_reach oneRelay (by decide +kernel)
  obtain ⟨s, hr, hone⟩ := hrun
  exact ⟨s, hr, hone, capacityKept_of_sendsSucceed hr⟩

def sendFailed : List Action :=
  [.newSession, .push 0, .acceptor 0 .accept, .acceptor 0 .enqueue, .take 0, .check 0, .openStream 0 true,
    .sendAddr 0 false, .putBack 0]

/-- No relay runs, yet the counter is full, a stream is open, and the session waits for ever. -/
theorem token_lost_on_failed_send : ∃ s : State 1 1, Reach (step 0) Any (initial 1) s ∧
    (∃ ss ∈ s.sessions[0]?, ss.pc = .sending ∧ ss.counter.buf.length = 1 ∧ ss.streams = [⟨false, false⟩]) ∧
    s.running 0 = 0 ∧ step 0 s (.push 0) = none :=
  exists_reach sendFailed (by decide +kernel)

end ArangeTun.Mux
