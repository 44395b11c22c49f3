import ArangeTun.UdpTransport.Lemmas.Table

/-! # Which pool connections the table of the UDP server holds -/

namespace ArangeTun.UdpTransport

open Go Transition

variable {size : Nat} {token : Str} {s : State size}

structure PoolTable (s : State size) : Prop where
  live : ∀ (k : Str) (c : Nat), s.activeConnections k = some c → (∀ w ∈ s.writes, w.conn = c → w.ok = true) →
    s.Live c
  /-- The `mu` of a relayed connection stays locked, and `keepAlive` sends nothing to it. -/
  locked : ∀ w ∈ s.writes, w.ok = true →
    ∃ conn : Conn, s.conns[w.conn]? = some conn ∧ conn.mu = some .loop ∧ conn.keepAlive ≠ .pinging
  holder : ∀ (c : Nat) (conn : Conn), s.conns[c]? = some conn → conn.mu = some .loop →
    s.Writing c ∨ ∃ w ∈ s.writes, w.conn = c

theorem inv_of_reach (h : Reach (step token) Any initial s) : Inv s :=
  h.invariant inv_initial fun _ _ _ hs _ hstep => hs.step (step_sound hstep)

/-- Every interleaving of `acceptTunnelConn`, any number of `handleLoop`s, `keepAlive`s and relays, with any outcome of
each write. -/
theorem pool_table (h : Reach (step token) Any initial s) : PoolTable s := by
  have hinv := inv_of_reach h
  refine ⟨?_, ?_, hinv.holder⟩
  · intro k c hk hok
    rcases hinv.known k c hk with hmem | ⟨w, hw, rfl⟩
    · exact .inl hmem
    · obtain ⟨conn, hc, hrelay, -⟩ := hinv.relayed w hw (hok w hw rfl)
      obtain ⟨conn', hc', -, hrunning⟩ := hinv.addr k w.conn hk
      rw [hc, Option.some.injEq] at hc'
      subst hc'
      refine .inr ⟨conn, hc, ?_⟩
      cases hr : conn.relay with
      | none => exact absurd hr hrelay
      | running => rfl
      | returned => exact absurd hr hrunning
  · intro w hw hok
    obtain ⟨conn, hc, -, hmu⟩ := hinv.relayed w hw hok
    refine ⟨conn, hc, hmu, fun hping => ?_⟩
    rw [hinv.pinging w.conn conn hc hping] at hmu
    cases hmu

def pairing : List Action :=
  [.receive (lit "p") (lit "t"), .store, .offer, .tick 0, .ping 0 true, .startLoop, .takeLocal 0 (lit "a:1") 0,
    .receive (lit "q") (lit "t"), .store, .takeTunnel 0, .offer, .closePing 0, .lock 0, .write 0 true, .tick 0,
    .receive (lit "p") (lit "data"), .consume 0]

theorem pool_table_pairing : ∃ s : State 1, Reach (step (lit "t")) Any initial s ∧
    (s.activeConnections (lit "p") = some 0 ∧ s.activeConnections (lit "q") = some 1 ∧
      s.writes = [⟨0, lit "a:1", true⟩] ∧ s.tunnelChannel.buf = [1] ∧
      s.conns.map (·.keepAlive) = [.returned, .ticking]) ∧ PoolTable s := by
  have hrun : ∃ s : State 1, Reach (step (lit "t")) Any initial s ∧
      (s.activeConnections (lit "p") = some 0 ∧ s.activeConnections (lit "q") = some 1 ∧
        s.writes = [⟨0, lit "a:1", true⟩] ∧ s.tunnelChannel.buf = [1] ∧
        s.conns.map (·.keepAlive) = [.returned, .ticking]) :=
    exists_reach pairing (by decide +kernel)
  obtain ⟨s, hreach, hs⟩ := hrun
  exact ⟨s, hreach, hs, pool_table hreach⟩

/-- The loop has started the relay of its only connection and waits for the next one with the `mu` locked. -/
theorem mutex_held_after_pairing : ∃ s : State 1, Reach (step (lit "t")) Any initial s ∧
    s.loops = [.waiting] ∧ s.conns.map (·.mu) = [some .loop, none] :=
  exists_reach pairing (by decide +kernel)

end ArangeTun.UdpTransport
