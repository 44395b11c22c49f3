import ArangeTun.Transition.Table
import ArangeTun.UdpTransport.Model

/-! # The table of the pool -/

namespace ArangeTun.UdpTransport

open Go Transition

variable {size : Nat} {token : Str} {s s' : State size}

inductive Step (s : State size) : Action → State size → Prop
  | cancel : Step s .cancel { s with cancelled := true }
  | filed {c : Nat} {conn : Conn} {peer data : Str} {payload : Chan Str payloadSize} : s.conns[c]? = some conn →
      Step s (.receive peer data) (s.setConn c { conn with payload })
  | dropped {peer data : Str} : Step s (.receive peer data) s
  | attempt {peer data : Str} : s.listener = .reading →
      Step s (.receive peer data) { s with listener := .storing peer }
  | stored {peer : Str} : s.listener = .storing peer →
      Step s .store { s with
        conns := s.conns ++ [⟨peer, .make, false, false, none, .none, .none⟩]
        activeConnections := s.activeConnections.set peer s.conns.length
        listener := .offering s.conns.length }
  | offered {c : Nat} {conn : Conn} {tunnelChannel : Chan Nat size} : s.listener = .offering c →
      s.conns[c]? = some conn → s.tunnelChannel.trySend c = some tunnelChannel →
      Step s .offer { s.setConn c { conn with keepAlive := .ticking } with tunnelChannel, listener := .reading }
  | refused {c : Nat} {conn : Conn} : s.listener = .offering c → s.conns[c]? = some conn →
      Step s .offer { s.setConn c { conn with payloadClosed := true } with listener := .refused c }
  | removed {c : Nat} {conn : Conn} : s.listener = .refused c → s.conns[c]? = some conn →
      Step s .remove
        { s with activeConnections := s.activeConnections.delete conn.addr, listener := .reading }
  | listenerDone : s.listener = .reading → Step s .listenerDone { s with listener := .returned }
  | startLoop : Step s .startLoop { s with loops := s.loops ++ [.waiting] }
  | outdated {i : Nat} {remoteAddr : Str} {age : Int} : Step s (.takeLocal i remoteAddr age) s
  | tookLocal {i : Nat} {remoteAddr : Str} {age : Int} : s.loops[i]? = some .waiting →
      Step s (.takeLocal i remoteAddr age) (s.setLoop i (.pairing remoteAddr))
  | tookTunnel {c i : Nat} {remoteAddr : Str} {tunnelChannel : Chan Nat size} :
      s.loops[i]? = some (.pairing remoteAddr) → s.tunnelChannel.tryRecv = some (c, tunnelChannel) →
      Step s (.takeTunnel i) { s.setLoop i (.taken remoteAddr c) with tunnelChannel }
  | closedPing {c i : Nat} {conn : Conn} {remoteAddr : Str} : s.loops[i]? = some (.taken remoteAddr c) →
      s.conns[c]? = some conn → Step s (.closePing i)
        ((s.setConn c { conn with pingClosed := true }).setLoop i (.locking remoteAddr c))
  | locked {c i : Nat} {conn : Conn} {remoteAddr : Str} : s.loops[i]? = some (.locking remoteAddr c) →
      s.conns[c]? = some conn → conn.mu = none →
      Step s (.lock i) ((s.setConn c { conn with mu := some .loop }).setLoop i (.writing remoteAddr c))
  | wrote {c i : Nat} {conn : Conn} {remoteAddr : Str} : s.loops[i]? = some (.writing remoteAddr c) →
      s.conns[c]? = some conn → Step s (.write i true)
        (((s.addWrite ⟨c, remoteAddr, true⟩).setConn c { conn with relay := .running }).setLoop i .waiting)
  | unwritten {c i : Nat} {remoteAddr : Str} : s.loops[i]? = some (.writing remoteAddr c) →
      Step s (.write i false) ((s.addWrite ⟨c, remoteAddr, false⟩).setLoop i (.pairing remoteAddr))
  | loopDone {i : Nat} {pc : LoopPc} : s.loops[i]? = some pc → pc.hand = [] →
      Step s (.loopDone i) (s.setLoop i .returned)
  | ticked {c : Nat} {conn : Conn} : s.conns[c]? = some conn → conn.mu = none →
      Step s (.tick c) (s.setConn c { conn with mu := some .keepAlive, keepAlive := .pinging })
  | stopped {c : Nat} {conn : Conn} : s.conns[c]? = some conn →
      Step s (.tick c) (s.setConn c { conn with keepAlive := .returned })
  | pinged {c : Nat} {conn : Conn} {ok : Bool} : s.conns[c]? = some conn → conn.keepAlive = .pinging →
      Step s (.ping c ok)
        (s.setConn c { conn with mu := none, keepAlive := if ok then .ticking else .returned })
  | keepAliveDone {c : Nat} {conn : Conn} : s.conns[c]? = some conn →
      Step s (.keepAliveDone c) (s.setConn c { conn with keepAlive := .returned })
  | consumed {c : Nat} {conn : Conn} {payload : Chan Str payloadSize} : s.conns[c]? = some conn →
      Step s (.consume c) (s.setConn c { conn with payload })
  | relayDone {c : Nat} {conn : Conn} : s.conns[c]? = some conn → conn.relay = .running →
      Step s (.relayDone c)
        { s.setConn c { conn with relay := .returned, payloadClosed := true } with
          activeConnections := s.activeConnections.delete conn.addr }
  | forgot {peer : Str} :
      Step s (.forget peer) { s with activeConnections := s.activeConnections.delete peer }

theorem step_sound {a : Action} (h : step token s a = some s') : Step s a s' := by
  cases a with
  | cancel =>
    cases h
    exact .cancel
  | receive peer data =>
    simp only [step, Option.ite_none_right_eq_some, receive] at h
    obtain ⟨hl, h⟩ := h
    split at h
    · simp only [Option.bind_eq_bind, Option.bind_eq_some_iff, Option.ite_none_left_eq_some] at h
      obtain ⟨conn, hconn, -, h⟩ := h
      split at h
      · cases h
        exact .filed hconn
      · cases h
        exact .dropped
    · split at h
      · cases h
        exact .attempt hl
      · cases h
        exact .dropped
  | store =>
    simp only [step] at h
    split at h
    · cases h
      exact .stored ‹_›
    · cases h
  | offer =>
    simp only [step] at h
    split at h
    · simp only [Option.bind_eq_bind, Option.bind_eq_some_iff] at h
      obtain ⟨conn, hconn, h⟩ := h
      split at h
      · cases h
        exact .offered ‹_› hconn ‹_›
      · cases h
        exact .refused ‹_› hconn
    · cases h
  | remove =>
    simp only [step] at h
    split at h
    · simp only [Option.bind_eq_bind, Option.bind_eq_some_iff, Option.some.injEq] at h
      obtain ⟨conn, hconn, rfl⟩ := h
      exact .removed ‹_› hconn
    · cases h
  | listenerDone =>
    simp only [step, Option.ite_none_right_eq_some, Option.some.injEq] at h
    obtain ⟨⟨hl, -⟩, rfl⟩ := h
    exact .listenerDone hl
  | startLoop =>
    cases h
    exact .startLoop
  | takeLocal i remoteAddr age =>
    simp only [step, Option.ite_none_right_eq_some] at h
    obtain ⟨hi, h⟩ := h
    split at h
    · cases h
      exact .outdated
    · cases h
      exact .tookLocal hi
  | takeTunnel i =>
    simp only [step, Option.bind_eq_bind, Option.bind_eq_some_iff] at h
    obtain ⟨pc, hi, h⟩ := h
    split at h
    · simp only [Option.bind_eq_some_iff, Option.some.injEq] at h
      obtain ⟨r, hr, rfl⟩ := h
      exact .tookTunnel hi hr
    · cases h
  | closePing i =>
    simp only [step, Option.bind_eq_bind, Option.bind_eq_some_iff] at h
    obtain ⟨pc, hi, h⟩ := h
    split at h
    · simp only [Option.bind_eq_some_iff, Option.ite_none_left_eq_some, Option.some.injEq] at h
      obtain ⟨conn, hconn, -, rfl⟩ := h
      exact .closedPing hi hconn
    · cases h
  | lock i =>
    simp only [step, Option.bind_eq_bind, Option.bind_eq_some_iff] at h
    obtain ⟨pc, hi, h⟩ := h
    split at h
    · simp only [Option.bind_eq_some_iff, Option.ite_none_right_eq_some, Option.some.injEq] at h
      obtain ⟨conn, hconn, hmu, rfl⟩ := h
      exact .locked hi hconn hmu
    · cases h
  | write i ok =>
    simp only [step, Option.bind_eq_bind, Option.bind_eq_some_iff] at h
    obtain ⟨pc, hi, h⟩ := h
    split at h
    · simp only [Option.bind_eq_some_iff] at h
      obtain ⟨conn, hconn, h⟩ := h
      cases ok with
      | true =>
        cases h
        exact .wrote hi hconn
      | false =>
        cases h
        exact .unwritten hi
    · cases h
  | loopDone i =>
    simp only [step, Option.bind_eq_bind, Option.bind_eq_some_iff] at h
    obtain ⟨pc, hi, h⟩ := h
    split at h
    · simp only [Option.ite_none_right_eq_some, Option.some.injEq] at h
      obtain ⟨-, rfl⟩ := h
      exact .loopDone hi rfl
    · simp only [Option.ite_none_right_eq_some, Option.some.injEq] at h
      obtain ⟨-, rfl⟩ := h
      exact .loopDone hi rfl
    · cases h
  | tick c =>
    simp only [step, Option.bind_eq_bind, Option.bind_eq_some_iff, Option.ite_none_right_eq_some] at h
    obtain ⟨conn, hconn, -, h⟩ := h
    split at h
    · cases h
      exact .ticked hconn ‹_›
    · cases h
      exact .stopped hconn
  | ping c ok =>
    simp only [step, Option.bind_eq_bind, Option.bind_eq_some_iff, Option.ite_none_right_eq_some,
      Option.some.injEq] at h
    obtain ⟨conn, hconn, hping, rfl⟩ := h
    exact .pinged hconn hping
  | keepAliveDone c =>
    simp only [step, Option.bind_eq_bind, Option.bind_eq_some_iff, Option.ite_none_right_eq_some,
      Option.some.injEq] at h
    obtain ⟨conn, hconn, -, rfl⟩ := h
    exact .keepAliveDone hconn
  | consume c =>
    simp only [step, Option.bind_eq_bind, Option.bind_eq_some_iff, Option.ite_none_right_eq_some,
      Option.some.injEq] at h
    obtain ⟨conn, hconn, -, r, -, rfl⟩ := h
    exact .consumed hconn
  | relayDone c =>
    simp only [step, Option.bind_eq_bind, Option.bind_eq_some_iff, Option.ite_none_right_eq_some,
      Option.some.injEq] at h
    obtain ⟨conn, hconn, hrun, rfl⟩ := h
    exact .relayDone hconn hrun
  | forget peer =>
    cases h
    exact .forgot

/-! ## What holds in every run -/

variable {c : Nat} {conn : Conn}

def State.Writing (s : State size) (c : Nat) : Prop := ∃ pc ∈ s.loops, pc.Writing c

structure Inv (s : State size) : Prop where
  known : ∀ (k : Str) (c : Nat), s.activeConnections k = some c → c ∈ s.waiting ∨ ∃ w ∈ s.writes, w.conn = c
  addr : ∀ (k : Str) (c : Nat), s.activeConnections k = some c →
    ∃ conn : Conn, s.conns[c]? = some conn ∧ conn.addr = k ∧ conn.relay ≠ .returned
  relayed : ∀ w ∈ s.writes, w.ok = true →
    ∃ conn : Conn, s.conns[w.conn]? = some conn ∧ conn.relay ≠ .none ∧ conn.mu = some .loop
  writing : ∀ c : Nat, s.Writing c → ∃ conn : Conn, s.conns[c]? = some conn ∧ conn.mu = some .loop
  holder : ∀ (c : Nat) (conn : Conn), s.conns[c]? = some conn → conn.mu = some .loop →
    s.Writing c ∨ ∃ w ∈ s.writes, w.conn = c
  pinging : ∀ (c : Nat) (conn : Conn), s.conns[c]? = some conn → conn.keepAlive = .pinging →
    conn.mu = some .keepAlive

theorem inv_initial : Inv (initial : State size) where
  known _ _ h := by cases h
  addr _ _ h := by cases h
  relayed _ h := by cases h
  writing _ h := by simp [State.Writing, initial] at h
  holder _ _ h := by simp [initial] at h
  pinging _ _ h := by simp [initial] at h

theorem State.Writing.setLoop {i : Nat} {pc pc' : LoopPc} (hi : s.loops[i]? = some pc)
    (hpc : pc.Writing c ↔ pc'.Writing c) : (s.setLoop i pc').Writing c ↔ s.Writing c :=
  exists_mem_set_iff hi hpc

theorem mem_waiting_setLoop {i : Nat} {pc pc' : LoopPc} (hi : s.loops[i]? = some pc)
    (hpc : c ∈ pc.hand → c ∈ pc'.hand) (h : c ∈ s.waiting) : c ∈ (s.setLoop i pc').waiting := by
  simp only [State.waiting, List.mem_append, List.mem_flatMap] at h ⊢
  rcases h with (h | h) | h
  · exact .inl (.inl (exists_mem_set hi hpc h))
  · exact .inl (.inr h)
  · exact .inr h

theorem Inv.setConn (conn' : Conn) (h : Inv s) (hc : s.conns[c]? = some conn) (haddr : conn'.addr = conn.addr)
    (hrelay : conn'.relay = conn.relay) (hmu : conn'.mu = some .loop ↔ conn.mu = some .loop)
    (hping : conn'.keepAlive = .pinging → conn'.mu = some .keepAlive) : Inv (s.setConn c conn') where
  known := h.known
  addr k j hj := by
    apply exists_set (h.addr k j hj) hc
    rw [haddr, hrelay]
    exact id
  relayed w hw hok := by
    apply exists_set (h.relayed w hw hok) hc
    rw [hrelay, hmu]
    exact id
  writing j hj := exists_set (h.writing j hj) hc hmu.mpr
  holder := forall_set h.holder fun hloop => h.holder c conn hc (hmu.mp hloop)
  pinging := forall_set h.pinging hping

theorem Inv.mono (h : Inv s) (hconns : s'.conns = s.conns) (hwrites : s'.writes = s.writes)
    (hactive : ∀ k c, s'.activeConnections k = some c → s.activeConnections k = some c)
    (hwaiting : ∀ k c, s'.activeConnections k = some c → c ∈ s.waiting → c ∈ s'.waiting)
    (hwriting : ∀ c, s'.Writing c ↔ s.Writing c) : Inv s' := by
  refine ⟨?_, ?_, ?_, ?_, ?_, ?_⟩
  · intro k c hk
    rw [hwrites]
    exact (h.known k c (hactive k c hk)).imp_left (hwaiting k c hk)
  · intro k c hk
    rw [hconns]
    exact h.addr k c (hactive k c hk)
  · rw [hwrites, hconns]
    exact h.relayed
  · intro c hc
    rw [hconns]
    exact h.writing c ((hwriting c).mp hc)
  · intro c conn hc hmu
    rw [hconns] at hc
    rw [hwriting, hwrites]
    exact h.holder c conn hc hmu
  · rw [hconns]
    exact h.pinging

theorem Inv.setListener {l : ListenerPc} (h : Inv s) (hhand : l.hand = s.listener.hand) :
    Inv { s with listener := l } := by
  refine h.mono rfl rfl (fun _ _ => id) (fun _ j _ hj => ?_) fun _ => Iff.rfl
  simpa only [State.waiting, hhand] using hj

theorem Inv.setLoop {i : Nat} {pc pc' : LoopPc} (h : Inv s) (hi : s.loops[i]? = some pc) (hhand : pc.hand ⊆ pc'.hand)
    (hwriting : ∀ c, pc.Writing c ↔ pc'.Writing c) : Inv (s.setLoop i pc') := by
  refine h.mono rfl rfl (fun _ _ => id) (fun _ j _ hj => ?_) fun j => State.Writing.setLoop hi (hwriting j)
  exact mem_waiting_setLoop hi (@hhand j) hj

theorem Inv.store {peer : Str} (h : Inv s) (hl : s.listener = .storing peer) :
    Inv { s with
      conns := s.conns ++ [⟨peer, .make, false, false, none, .none, .none⟩]
      activeConnections := s.activeConnections.set peer s.conns.length
      listener := .offering s.conns.length } := by
  refine ⟨?_, ?_, ?_, ?_, ?_, ?_⟩
  · intro k c hk
    rcases Map.set_eq_some.mp hk with ⟨-, rfl⟩ | ⟨-, hk⟩
    · left
      simp [State.waiting, ListenerPc.hand]
    · refine (h.known k c hk).imp_left fun hmem => ?_
      simp only [State.waiting, hl, ListenerPc.hand, List.append_nil, List.mem_append] at hmem ⊢
      exact .inl hmem
  · intro k c hk
    rcases Map.set_eq_some.mp hk with ⟨rfl, rfl⟩ | ⟨-, hk⟩
    · exact ⟨_, List.getElem?_concat_length .., rfl, Relay.noConfusion⟩
    · exact exists_concat (h.addr k c hk)
  · exact fun w hw hok => exists_concat (h.relayed w hw hok)
  · exact fun c hc => exists_concat (h.writing c hc)
  · exact forall_concat h.holder fun hmu => by cases hmu
  · exact forall_concat h.pinging fun hping => by cases hping

theorem Inv.remove (h : Inv s) (hl : s.listener = .refused c) (hc : s.conns[c]? = some conn) :
    Inv { s with activeConnections := s.activeConnections.delete conn.addr, listener := .reading } := by
  refine h.mono rfl rfl ?_ ?_ fun _ => Iff.rfl
  · exact fun k j hj => (Map.delete_eq_some.mp hj).2
  · intro k j hj hmem
    obtain ⟨hk, hj⟩ := Map.delete_eq_some.mp hj
    have hne : j ≠ c := by
      rintro rfl
      obtain ⟨conn', hc', rfl, -⟩ := h.addr k j hj
      rw [hc, Option.some.injEq] at hc'
      exact hk (hc' ▸ rfl)
    simp only [State.waiting, hl, ListenerPc.hand, List.mem_append, List.mem_singleton, hne, or_false] at hmem
    simp only [State.waiting, ListenerPc.hand, List.mem_append]
    exact .inl hmem

theorem Inv.lock {i : Nat} {remoteAddr : Str} (h : Inv s) (hi : s.loops[i]? = some (.locking remoteAddr c))
    (hc : s.conns[c]? = some conn) (hmu : conn.mu = none) :
    Inv ((s.setConn c { conn with mu := some .loop }).setLoop i (.writing remoteAddr c)) := by
  have hwriting (j : Nat) (hj : s.Writing j) :
      ((s.setConn c { conn with mu := some .loop }).setLoop i (.writing remoteAddr c)).Writing j :=
    exists_mem_set hi (fun hfalse => hfalse.elim) hj
  refine ⟨?_, ?_, ?_, ?_, ?_, ?_⟩
  · exact fun k j hj => (h.known k j hj).imp_left (mem_waiting_setLoop hi id)
  · exact fun k j hj => exists_set (h.addr k j hj) hc id
  · exact fun w hw hok => exists_set (h.relayed w hw hok) hc fun hQ => ⟨hQ.1, rfl⟩
  · rintro j ⟨pc, hpc, hj⟩
    rcases List.mem_or_eq_of_mem_set hpc with hpc | rfl
    · exact exists_set (h.writing j ⟨pc, hpc, hj⟩) hc fun _ => rfl
    · cases hj
      exact ⟨_, getElem?_set_self hc, rfl⟩
  · intro j conn' hj hloop
    rcases getElem?_set_cases hj with ⟨rfl, -⟩ | ⟨-, hj⟩
    · exact .inl ⟨_, List.mem_of_getElem? (getElem?_set_self hi), rfl⟩
    · exact (h.holder j conn' hj hloop).imp_left (hwriting j)
  · refine forall_set h.pinging fun hping => ?_
    rw [h.pinging c conn hc hping] at hmu
    cases hmu

theorem Inv.write {i : Nat} {w : Write} {pc' : LoopPc} (h : Inv s)
    (hi : s.loops[i]? = some (.writing w.remoteAddr w.conn)) (hpc' : ∀ c, ¬pc'.Writing c)
    (hrelay : w.ok = true → ∃ conn : Conn, s.conns[w.conn]? = some conn ∧ conn.relay ≠ .none) :
    Inv ((s.addWrite w).setLoop i pc') := by
  have hwriting : s.Writing w.conn := ⟨_, List.mem_of_getElem? hi, rfl⟩
  have hback (j : Nat) (hj : ((s.addWrite w).setLoop i pc').Writing j) : s.Writing j := by
    obtain ⟨pc, hpc, hj⟩ := hj
    rcases List.mem_or_eq_of_mem_set hpc with hpc | rfl
    · exact ⟨pc, hpc, hj⟩
    · exact absurd hj (hpc' j)
  have hold {j : Nat} (hj : ∃ w' ∈ s.writes, w'.conn = j) : ∃ w' ∈ s.writes ++ [w], w'.conn = j := by
    obtain ⟨w', hw', hj⟩ := hj
    exact ⟨w', List.mem_append_left _ hw', hj⟩
  refine ⟨?_, h.addr, ?_, ?_, ?_, h.pinging⟩
  · intro k j hk
    by_cases hj : w.conn = j
    · exact .inr ⟨w, List.mem_append_right _ List.mem_cons_self, hj⟩
    · rcases h.known k j hk with hmem | hmem
      · refine .inl (mem_waiting_setLoop (s := s.addWrite w) hi (fun hhand => ?_) hmem)
        exact absurd (List.mem_singleton.mp hhand).symm hj
      · exact .inr (hold hmem)
  · intro w' hw' hok
    rcases List.mem_append.mp hw' with hw' | hw'
    · exact h.relayed w' hw' hok
    · cases List.mem_singleton.mp hw'
      obtain ⟨conn, hconn, hrun⟩ := hrelay hok
      obtain ⟨conn', hconn', hmu⟩ := h.writing w.conn hwriting
      rw [hconn, Option.some.injEq] at hconn'
      exact ⟨conn, hconn, hrun, hconn' ▸ hmu⟩
  · exact fun j hj => h.writing j (hback j hj)
  · intro j conn hj hmu
    rcases h.holder j conn hj hmu with ⟨pc, hpc, hw⟩ | hw
    · rcases List.mem_iff_getElem?.mp hpc with ⟨m, hm⟩
      by_cases him : i = m
      · subst him
        rw [hi, Option.some.injEq] at hm
        subst hm
        exact .inr ⟨w, List.mem_append_right _ List.mem_cons_self, hw⟩
      · exact .inl ⟨pc, List.mem_of_getElem? ((getElem?_set_ne him).trans hm), hw⟩
    · exact .inr (hold hw)

theorem Inv.relay (h : Inv s) (hc : s.conns[c]? = some conn) : Inv (s.setConn c { conn with relay := .running }) where
  known := h.known
  addr k j hj := exists_set (h.addr k j hj) hc fun hQ => ⟨hQ.1, Relay.noConfusion⟩
  relayed w hw hok := exists_set (h.relayed w hw hok) hc fun hQ => ⟨Relay.noConfusion, hQ.2⟩
  writing j hj := exists_set (h.writing j hj) hc id
  holder := forall_set h.holder (h.holder c conn hc)
  pinging := forall_set h.pinging (h.pinging c conn hc)

theorem Inv.relayDone (h : Inv s) (hc : s.conns[c]? = some conn) :
    Inv { s.setConn c { conn with relay := .returned, payloadClosed := true } with
      activeConnections := s.activeConnections.delete conn.addr } where
  known k j hj := h.known k j (Map.delete_eq_some.mp hj).2
  addr k j hj := by
    obtain ⟨hk, hj⟩ := Map.delete_eq_some.mp hj
    obtain ⟨conn', hj', rfl, hrelay⟩ := h.addr k j hj
    have hne : c ≠ j := by
      rintro rfl
      rw [hc, Option.some.injEq] at hj'
      exact hk (hj' ▸ rfl)
    exact ⟨conn', (getElem?_set_ne hne).trans hj', rfl, hrelay⟩
  relayed w hw hok := exists_set (h.relayed w hw hok) hc fun hQ => ⟨Relay.noConfusion, hQ.2⟩
  writing j hj := exists_set (h.writing j hj) hc id
  holder := forall_set h.holder (h.holder c conn hc)
  pinging := forall_set h.pinging (h.pinging c conn hc)

theorem Inv.step {a : Action} (h : Inv s) (hstep : Step s a s') : Inv s' := by
  cases hstep with
  | cancel => exact h.mono rfl rfl (fun _ _ => id) (fun _ _ _ => id) fun _ => Iff.rfl
  | @filed c conn _ _ _ hc => exact h.setConn _ hc rfl rfl Iff.rfl (h.pinging c conn hc)
  | dropped | outdated => exact h
  | attempt hl =>
    apply h.setListener
    rw [hl]
    rfl
  | stored hl => exact h.store hl
  | @offered c conn _ hl hc hsend =>
    have hticking := h.setConn { conn with keepAlive := .ticking } hc rfl rfl Iff.rfl fun hping => by cases hping
    refine hticking.mono rfl rfl (fun _ _ => id) ?_ fun _ => Iff.rfl
    intro _ j _ hj
    simpa only [State.waiting, State.setConn, hl, ListenerPc.hand, (Chan.trySend_eq_some hsend).2,
      List.append_nil, List.append_assoc] using hj
  | @refused c conn hl hc =>
    apply (h.setConn { conn with payloadClosed := true } hc rfl rfl Iff.rfl (h.pinging c conn hc)).setListener
    simp only [State.setConn, hl, ListenerPc.hand]
  | removed hl hc => exact h.remove hl hc
  | listenerDone hl =>
    apply h.setListener
    rw [hl]
    rfl
  | startLoop =>
    refine h.mono rfl rfl (fun _ _ => id) (fun _ j _ hj => ?_) fun j => ?_
    · simpa [State.waiting, LoopPc.hand] using hj
    · simp [State.Writing, LoopPc.Writing]
  | tookLocal hi => exact h.setLoop hi (fun _ => id) fun _ => Iff.rfl
  | tookTunnel hi hrecv =>
    refine h.mono rfl rfl (fun _ _ => id) ?_ fun j => State.Writing.setLoop hi Iff.rfl
    intro _ j _ hj
    simp only [State.waiting, Chan.tryRecv_eq_some hrecv, List.mem_append, List.mem_cons, List.mem_flatMap,
      State.setLoop] at hj ⊢
    rcases hj with (hj | rfl | hj) | hj
    · exact .inl (.inl (exists_mem_set hi (fun hhand => by cases hhand) hj))
    · exact .inl (.inl ⟨_, List.mem_of_getElem? (getElem?_set_self hi), List.mem_cons_self⟩)
    · exact .inl (.inr hj)
    · exact .inr hj
  | @closedPing c _ conn _ hi hc =>
    have hclosed := h.setConn { conn with pingClosed := true } hc rfl rfl Iff.rfl (h.pinging c conn hc)
    exact hclosed.setLoop hi (fun _ => id) fun _ => Iff.rfl
  | locked hi hc hmu => exact h.lock hi hc hmu
  | @wrote c i conn remoteAddr hi hc =>
    apply (h.relay hc).write (w := ⟨c, remoteAddr, true⟩) hi fun _ => id
    exact fun _ => ⟨_, getElem?_set_self hc, Relay.noConfusion⟩
  | @unwritten c i remoteAddr hi =>
    apply h.write (w := ⟨c, remoteAddr, false⟩) hi fun _ => id
    intro hok
    cases hok
  | @loopDone i pc hi hhand =>
    apply h.setLoop hi
    · rw [hhand]
      exact List.nil_subset _
    · intro c
      cases pc <;> cases hhand <;> exact Iff.rfl
  | ticked hc hmu =>
    refine h.setConn _ hc rfl rfl ?_ fun _ => rfl
    simp [hmu]
  | stopped hc | keepAliveDone hc => exact h.setConn _ hc rfl rfl Iff.rfl fun hping => by cases hping
  | @pinged c conn ok hc hping =>
    refine h.setConn _ hc rfl rfl ?_ fun hping' => ?_
    · simp [h.pinging c conn hc hping]
    · cases ok <;> cases hping'
  | @consumed c conn _ hc => exact h.setConn _ hc rfl rfl Iff.rfl (h.pinging c conn hc)
  | relayDone hc => exact h.relayDone hc
  | forgot =>
    refine h.mono rfl rfl (fun k j hj => (Map.delete_eq_some.mp hj).2) (fun _ _ _ => id) fun _ => Iff.rfl

end ArangeTun.UdpTransport
