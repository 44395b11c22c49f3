import ArangeTun.Quic.Model
import ArangeTun.UdpForward.Lemmas.Step

/-! # What a forwarded UDP flow puts on its QUIC stream -/

namespace ArangeTun.Quic

open Go Relay UdpForward Transition List Option

section

variable {config : QuicConfig} {localAddr peer : Str × UInt16} {target : Str} {s s' : State}

/-- The stream has the address and then the frames of `ds`, up to what the relay and the flow still have in hand. -/
def Carried (target : Str) (s : State) (ds : List Str) : TransferPc → Prop
  | .reading => s.stream ++ s.flow.pending = Wire.binaryFrame target ++ ds.flatMap frame
  | .writing rest => s.stream ++ rest ++ s.flow.pending = Wire.binaryFrame target ++ ds.flatMap frame
  | .readFailed _ => s.stream = Wire.binaryFrame target ++ ds.flatMap frame
  | .writeFailed _ => s.stream <+: Wire.binaryFrame target ++ ds.flatMap frame

/-- A flow that was paired is relayed, its datagrams in their order after the address. -/
def Carries (target : Str) (s : State) : Prop :=
  match s.stage with
  | .offered | .refused | .waiting _ | .givenUp => s.stream = []
  | .paired _ => s.stream = Wire.binaryFrame target
  | .dropped _ => False
  | .relaying pc => ∃ ds, s.queued = ds ++ s.flow.queue.buf ∧ Carried target s ds pc

def localConn (config : QuicConfig) (localAddr peer : Str × UInt16) : Conn :=
  wrap (newLimiter config.limits) (.udpFlow (.udp localAddr.1 localAddr.2) (.udp peer.1 peer.2))

def Unread (s : State) : Prop := s.queued = s.flow.queue.buf ∧ s.flow.pending = []

def Inv (config : QuicConfig) (localAddr peer : Str × UInt16) (target : Str) (s : State) : Prop :=
  match s.stage with
  | .offered | .refused | .givenUp => Unread s ∧ s.stream = []
  | .waiting conn => Unread s ∧ s.stream = [] ∧ conn = localConn config localAddr peer
  | .paired conn => Unread s ∧ s.stream = Wire.binaryFrame target ∧ conn = localConn config localAddr peer
  | .dropped _ => False
  | .relaying pc => ∃ ds, s.queued = ds ++ s.flow.queue.buf ∧ Carried target s ds pc

theorem Inv.carries (h : Inv config localAddr peer target s) : Carries target s := by
  unfold Inv at h
  unfold Carries
  cases hs : s.stage with
  | offered | refused | givenUp =>
    rw [hs] at h
    exact h.2
  | waiting | paired =>
    rw [hs] at h
    exact h.2.1
  | dropped | relaying =>
    rw [hs] at h
    exact h

/-! ## Which connection is taken for a flow -/

theorem isUDPFlow_localConn : isUDPFlow (localConn config localAddr peer) = true ↔ config.limits.bandwidthMbps ≤ 0 := by
  unfold localConn newLimiter
  split
  · rename_i h
    simp [wrap, isUDPFlow, h.2]
  · by_cases hb : 0 < config.limits.bandwidthMbps
    · simp [wrap, isUDPFlow, hb]
    · simp [wrap, isUDPFlow, hb, Int.not_lt.mp hb]

theorem proxyHeader_localConn (config : QuicConfig) (localAddr peer : Str × UInt16) :
    ∃ err, proxyHeader (localConn config localAddr peer) = .error err := by
  unfold localConn newLimiter
  split
  · exact ⟨_, rfl⟩
  · by_cases hb : 0 < config.limits.bandwidthMbps
    · simp [wrap, hb, proxyHeader, Conn.remoteAddr]
    · simp [wrap, hb, proxyHeader, Conn.remoteAddr]

theorem handle_localConn (h : ¬(0 < config.limits.bandwidthMbps ∧ config.proxyProtocol = true)) (stream : Str) :
    handle config (localConn config localAddr peer) stream = (.relaying .reading, stream) := by
  unfold handle
  rw [if_neg]
  rw [Bool.and_eq_true, Bool.not_eq_true', not_and, Bool.not_eq_false]
  intro hproxy
  exact isUDPFlow_localConn.mpr (Int.not_lt.mp fun hb => h ⟨hb, hproxy⟩)

/-! ## One step -/

theorem Inv.deliver {flow : Flow} {queued : List Str} {d : List Str} (h : Inv config localAddr peer target s)
    (hqueue : flow.queue.buf = s.flow.queue.buf ++ d) (hpending : flow.pending = s.flow.pending)
    (hqueued : queued = s.queued ++ d) : Inv config localAddr peer target { s with flow, queued } := by
  have hunread (hu : Unread s) : Unread { s with flow, queued } :=
    ⟨by rw [hqueued, hu.1]; exact hqueue.symm, hpending.trans hu.2⟩
  unfold Inv at h ⊢
  simp only
  cases hs : s.stage with
  | offered | refused | givenUp | waiting | paired =>
    rw [hs] at h
    exact ⟨hunread h.1, h.2⟩
  | dropped =>
    rw [hs] at h
    exact h
  | relaying pc =>
    rw [hs] at h
    obtain ⟨ds, hds, hcarried⟩ := h
    refine ⟨ds, by rw [hqueued, hds, hqueue, append_assoc], ?_⟩
    cases pc with
    | reading | writing =>
      simp only [Carried] at hcarried ⊢
      rw [hpending]
      exact hcarried
    | readFailed | writeFailed => exact hcarried

theorem Inv.took {flow : Flow} {data : Str} (ds : List Str)
    (hstep : s.transfer flow .reading (.read data none) = some s') (hds : s.queued = ds ++ flow.queue.buf)
    (hcarried : s.stream ++ data ++ flow.pending = Wire.binaryFrame target ++ ds.flatMap frame) :
    Inv config localAddr peer target s' := by
  cases hstep
  refine ⟨ds, hds, ?_⟩
  unfold TransferPc.next
  split
  · rename_i hdata
    subst hdata
    simp only [Carried, append_nil] at hcarried ⊢
    exact hcarried
  · simp only [Carried, append_nil]
    exact hcarried

theorem Inv.read (h : Inv config localAddr peer target s) (hstage : s.stage = .relaying .reading)
    (hstep : step config localAddr peer target s .read = some s') : Inv config localAddr peer target s' := by
  unfold Inv at h
  rw [hstage] at h
  obtain ⟨ds, hds, hcarried⟩ := h
  simp only [Carried] at hcarried
  simp only [step, hstage, bind_eq_bind, bind_eq_some_iff] at hstep
  obtain ⟨r, hr, hstep⟩ := hstep
  rcases Flow.read_cases hr with rfl | ⟨payload, queue, hpending, hrecv, rfl⟩ | ⟨hpending, -, rfl⟩
  · -- the rest of a frame
    apply Inv.took ds hstep hds
    simp only [Flow.hand, append_assoc, take_append_drop]
    exact hcarried
  · -- the next frame
    apply Inv.took (ds ++ [payload]) hstep
    · rw [hds, Chan.tryRecv_eq_some hrecv]
      simp [Flow.hand]
    · rw [hpending, append_nil] at hcarried
      simp [Flow.hand, hcarried]
  · -- `io.EOF`
    cases hstep
    refine ⟨ds, hds, ?_⟩
    rw [hpending, append_nil] at hcarried
    simp only [Carried, append_nil]
    exact hcarried

theorem Inv.write {pc : TransferPc} {n : Nat} {err : Option Error} (h : Inv config localAddr peer target s)
    (hstage : s.stage = .relaying pc) (hstep : s.transfer s.flow pc (.write n err) = some s') :
    Inv config localAddr peer target s' := by
  unfold Inv at h
  rw [hstage] at h
  obtain ⟨ds, hds, hcarried⟩ := h
  cases pc with
  | reading | readFailed | writeFailed => cases hstep
  | writing rest =>
    simp only [Carried] at hcarried
    simp only [State.transfer, map_eq_some_iff] at hstep
    obtain ⟨⟨taken, pc⟩, ht, rfl⟩ := hstep
    cases err with
    | some err =>
      simp only [transferStep, ite_none_right_eq_some, Option.some.injEq, Prod.mk.injEq] at ht
      obtain ⟨-, rfl, rfl⟩ := ht
      refine ⟨ds, hds, ?_⟩
      simp only [Carried]
      rw [← hcarried, append_assoc s.stream rest, prefix_append_right_inj]
      have htake : rest.take n <+: rest := take_prefix n rest
      exact htake.trans (prefix_append ..)
    | none =>
      simp only [transferStep, ite_none_right_eq_some, Option.some.injEq, Prod.mk.injEq] at ht
      obtain ⟨-, rfl, rfl⟩ := ht
      refine ⟨ds, hds, ?_⟩
      have hcut : s.stream ++ rest.take n ++ rest.drop n ++ s.flow.pending =
          Wire.binaryFrame target ++ ds.flatMap frame := by
        rw [append_assoc s.stream, take_append_drop]
        exact hcarried
      unfold TransferPc.next
      split
      · rename_i hrest
        rw [hrest, append_nil] at hcut
        exact hcut
      · exact hcut

theorem Inv.step {a : Action} (hconfig : ¬(0 < config.limits.bandwidthMbps ∧ config.proxyProtocol = true))
    (h : Inv config localAddr peer target s) (hstep : step config localAddr peer target s a = some s') :
    Inv config localAddr peer target s' := by
  cases a with
  | tick ns =>
    cases hstep
    exact h.deliver (d := []) (append_nil _).symm rfl (append_nil _).symm
  | deliver payload queued =>
    obtain ⟨flow, hflow, hstep⟩ := bind_eq_some_iff.mp hstep
    cases hstep
    rcases Flow.deliver_cases hflow with ⟨rfl, rfl⟩ | ⟨rfl, queue, hsend, rfl⟩
    · exact h.deliver (d := []) (append_nil _).symm rfl (append_nil _).symm
    · exact h.deliver (Chan.trySend_eq_some hsend).2 rfl rfl
  | signal =>
    simp only [Quic.step, ite_none_left_eq_some, Option.some.injEq] at hstep
    obtain ⟨-, rfl⟩ := hstep
    exact h.deliver (d := []) (append_nil _).symm rfl (append_nil _).symm
  | admitted active room =>
    simp only [Quic.step] at hstep
    split at hstep
    · rename_i hstage
      cases hstep
      unfold Inv at h
      rw [hstage] at h
      unfold udpAdmitter
      split
      · exact ⟨h.1, h.2, rfl⟩
      · exact h
    · cases hstep
  | giveUp =>
    simp only [Quic.step] at hstep
    split at hstep
    · rename_i hstage
      cases hstep
      unfold Inv at h
      rw [hstage] at h
      exact ⟨h.1, h.2.1⟩
    · cases hstep
  | pair ok =>
    simp only [Quic.step] at hstep
    split at hstep
    · rename_i conn hstage
      cases hstep
      cases ok with
      | false => exact h
      | true =>
        unfold Inv at h
        rw [hstage] at h
        exact ⟨h.1, rfl, h.2.2⟩
    · cases hstep
  | handle =>
    simp only [Quic.step] at hstep
    split at hstep
    · rename_i conn hstage
      cases hstep
      unfold Inv at h
      rw [hstage] at h
      obtain ⟨⟨hqueued, hpending⟩, hstream, rfl⟩ := h
      rw [handle_localConn hconfig]
      refine ⟨[], hqueued, ?_⟩
      simp only [Carried, hstream, hpending, append_nil, flatMap_nil]
    · cases hstep
  | read =>
    by_cases hstage : s.stage = .relaying .reading
    · exact h.read hstage hstep
    · simp only [Quic.step] at hstep
      cases hstep
  | write n err =>
    simp only [Quic.step] at hstep
    split at hstep
    · exact h.write ‹_› hstep
    · cases hstep

end

theorem dropped_of_limited {config : QuicConfig} (localAddr peer : Str × UInt16) (target key : Str)
    (queue : Chan Str udpFlowQueue) (phase : Phase) (now : Nat) (hb : 0 < config.limits.bandwidthMbps)
    (hproxy : config.proxyProtocol = true) :
    ∃ s err, Reach (step config localAddr peer target) Any (initial key queue phase now) s ∧
      s.stage = .dropped err := by
  have hgrants : grants (newLimiter config.limits) 0 = true := by
    unfold newLimiter grants
    split
    · rfl
    · rename_i l heq
      simp only [Server.acquire]
      split
      · rfl
      · simp only [decide_eq_true_eq]
        omega
  have hlimited : isUDPFlow (localConn config localAddr peer) = false := by
    rw [← Bool.not_eq_true, isUDPFlow_localConn]
    exact Int.not_le.mpr hb
  obtain ⟨err, herr⟩ := proxyHeader_localConn config localAddr peer
  have hadmit : udpAdmitter (newLimiter config.limits) 0 true
      (.udpFlow (.udp localAddr.1 localAddr.2) (.udp peer.1 peer.2)) = .waiting (localConn config localAddr peer) := by
    simp [udpAdmitter, hgrants, localConn]
  have hhandle (stream : Str) : handle config (localConn config localAddr peer) stream = (.dropped err, stream) := by
    simp [handle, hproxy, hlimited, herr]
  let s₁ : State := { initial key queue phase now with stage := .waiting (localConn config localAddr peer) }
  let s₂ : State := { s₁ with stage := .paired (localConn config localAddr peer), stream := Wire.binaryFrame target }
  refine ⟨{ s₂ with stage := .dropped err }, err, ?_, rfl⟩
  have h₁ : step config localAddr peer target (initial key queue phase now) (.admitted 0 true) = some s₁ := by
    simp only [step, initial, hadmit]
    rfl
  have h₂ : step config localAddr peer target s₁ (.pair true) = some s₂ := rfl
  have h₃ : step config localAddr peer target s₂ .handle = some { s₂ with stage := .dropped err } := by
    simp only [step, s₂, hhandle]
  exact ((Reach.init.next trivial h₁).next trivial h₂).next trivial h₃

/-- A rate limit together with the PROXY protocol drops every flow that is paired; without either of them each one is
carried whole. -/
theorem quic_carries_only_frames (config : QuicConfig) (localAddr peer : Str × UInt16) (target key : Str)
    (queue : Chan Str udpFlowQueue) (phase : Phase) (now : Nat) :
    (∀ s, Reach (step config localAddr peer target) Any (initial key queue phase now) s → Carries target s) ↔
      ¬(0 < config.limits.bandwidthMbps ∧ config.proxyProtocol = true) := by
  constructor
  · rintro h ⟨hb, hproxy⟩
    obtain ⟨s, err, hreach, hstage⟩ := dropped_of_limited localAddr peer target key queue phase now hb hproxy
    have hcarries := h s hreach
    unfold Carries at hcarries
    rw [hstage] at hcarries
    exact hcarries
  · intro hconfig s hreach
    have hinv : Inv config localAddr peer target s := by
      apply hreach.invariant (I := Inv config localAddr peer target)
      · exact ⟨⟨rfl, rfl⟩, rfl⟩
      · intro s a s' hs _ hstep
        exact hs.step hconfig hstep
    exact hinv.carries

/-- A flow from 10.0.0.2:5353 with a datagram in its queue, on a server with a limit of ten megabits. -/
theorem limited_flow_is_dropped :
    ∃ s, Reach (step ⟨true, ⟨0, 10⟩⟩ ([0, 0, 0, 0], 53) ([10, 0, 0, 2], 5353) (lit "udp://53")) Any
        (initial (lit "10.0.0.2:5353") ⟨[lit "query"], by decide⟩ .fresh 0) s ∧
      (s.stage = .dropped (.other (lit "source connection address is not a TCP address")) ∧
        s.stream = Wire.binaryFrame (lit "udp://53") ∧ s.flow.queue.buf = [lit "query"]) ∧
      ¬Carries (lit "udp://53") s := by
  have hrun : ∃ s, Reach (step ⟨true, ⟨0, 10⟩⟩ ([0, 0, 0, 0], 53) ([10, 0, 0, 2], 5353) (lit "udp://53")) Any
        (initial (lit "10.0.0.2:5353") ⟨[lit "query"], by decide⟩ .fresh 0) s ∧
      (s.stage = .dropped (.other (lit "source connection address is not a TCP address")) ∧
        s.stream = Wire.binaryFrame (lit "udp://53") ∧ s.flow.queue.buf = [lit "query"]) :=
    exists_reach [.admitted 0 true, .pair true, .handle] (by decide +kernel)
  obtain ⟨s, hreach, hs⟩ := hrun
  refine ⟨s, hreach, hs, fun hcarries => ?_⟩
  unfold Carries at hcarries
  rw [hs.1] at hcarries
  exact hcarries

end ArangeTun.Quic
