import ArangeTun.Pck.Numbers

/-! # The peers of the pck carrier -/

namespace ArangeTun.Pck

open Go Transition List Option PckConn

/-! ## Sources -/

def UDPAddr.IsIPv4 (a : UDPAddr) : Prop := ∃ (v : Packet.IPv4) (port : UInt16), a = ⟨v.toList, port.toNat, []⟩

section

variable {ip tcp frame : Str} {wantPort : UInt16} {seg : PckSegment}

theorem parseTCP_srcIP (h : parseTCP ip tcp wantPort = some (some seg)) : seg.srcIP.length = 4 := by
  simp only [parseTCP, bind_eq_bind, ite_eq_iff, bind_eq_some_iff, some.injEq, reduceCtorEq, and_false, false_or] at h
  obtain ⟨-, -, -, -, -, -, -, srcIP, hslice, -, -, -, -, -, -, -, -, -, -, rfl⟩ := h
  obtain ⟨hb, hsrc⟩ := ite_none_right_eq_some.mp hslice
  cases hsrc
  simp [hb.2]

theorem parseIPv4_srcIP (h : parseIPv4 ip wantPort = some (some seg)) : seg.srcIP.length = 4 := by
  simp only [parseIPv4, bind_eq_bind, ite_eq_iff, bind_eq_some_iff, some.injEq, reduceCtorEq, and_false, false_or] at h
  obtain ⟨_, -, -, -, _, -, -, _, -, -, _, -, -, _, -, htcp⟩ := h
  exact parseTCP_srcIP htcp

theorem accept_source {c : PckConn} (h : c.accept frame = some seg) : seg.source.IsIPv4 := by
  have hlen : seg.srcIP.length = 4 := by
    simp only [accept] at h
    split at h
    · rename_i seg' hparse
      obtain ⟨-, h⟩ := ite_none_left_eq_some.mp h
      obtain ⟨-, h⟩ := ite_none_left_eq_some.mp h
      cases h
      simp only [parsePckFrame, bind_eq_bind, ite_eq_iff, bind_eq_some_iff, some.injEq, reduceCtorEq, and_false,
        false_or] at hparse
      obtain ⟨-, _, -, -, _, -, hip⟩ := hparse
      exact parseIPv4_srcIP hip
    · cases h
  obtain ⟨a, b, c, d, hip⟩ := length_eq_four.mp hlen
  exact ⟨#v[a, b, c, d], seg.srcPort, by rw [PckSegment.source, hip]; rfl⟩

end

/-! ## At most one entry for each source -/

def Pc.address : Pc → Option UDPAddr
  | .reading seg | .acknowledging seg => some seg.source
  | .writing _ dst | .numbering _ dst => some dst
  | _ => none

/-- The condition on a run: what is written goes to addresses that segments can come from. -/
def RepliesIPv4 (_ : Threads Shared Pc) : Act Request Outside Env → Prop
  | .enter (.write _ addr) => ∀ dst ∈ toUDPAddr addr, dst.IsIPv4
  | .enter (.frame _) | .move _ _ | .env _ => True

section

variable {c : PckConn} {t : Threads Shared Pc}

def KeysIPv4 (s : Shared) : Prop := ∀ key ∈ s.peers, ∃ a : UDPAddr, a.IsIPv4 ∧ key = a.string

def CallIPv4 (_ : Shared) (_ : Nat) (pc : Pc) : Prop := ∀ a ∈ pc.address, a.IsIPv4

theorem KeysIPv4.insert {s : Shared} (h : KeysIPv4 s) {a : UDPAddr} (ha : a.IsIPv4) (peer : PckPeer) :
    ∀ key ∈ s.peers.insert a.string peer, ∃ a : UDPAddr, a.IsIPv4 ∧ key = a.string := by
  intro key hkey
  rcases (AList.mem_insert _).mp hkey with rfl | hkey
  · exact ⟨a, ha, rfl⟩
  · exact h key hkey

theorem enter_callIPv4 {s : Shared} {i : Nat} {r : Request} {sh : Shared} {pc : Pc}
    (hc : RepliesIPv4 t (.enter r)) (h : c.enter s i r = some (sh, pc)) :
    sh = s ∧ CallIPv4 sh i pc := by
  cases r with
  | frame b =>
    simp only [enter] at h
    split at h
    · rename_i seg hseg
      cases h
      refine ⟨rfl, fun a ha => ?_⟩
      cases ha
      exact accept_source hseg
    · cases h
      exact ⟨rfl, fun a ha => by cases ha⟩
  | write p addr =>
    simp only [enter] at h
    split at h
    · cases h
      exact ⟨rfl, fun a ha => by cases ha⟩
    · split at h
      · rename_i dst hdst
        cases h
        refine ⟨rfl, fun a ha => ?_⟩
        cases ha
        exact hc dst hdst
      · cases h
        exact ⟨rfl, fun a ha => by cases ha⟩

theorem move_keysIPv4 {s sh : Shared} {i : Nat} {pc pc' : Pc} {x : Outside} (hk : KeysIPv4 s)
    (hpc : CallIPv4 s i pc) (h : c.move s i pc x = some (sh, pc')) :
    KeysIPv4 sh ∧ CallIPv4 sh i pc' := by
  cases pc with
  | reading seg =>
    cases h
    exact ⟨hk.insert (hpc _ rfl) _, hpc⟩
  | acknowledging seg =>
    obtain ⟨peer, _, heq⟩ := map_eq_some_iff.mp h
    cases heq
    exact ⟨hk.insert (hpc _ rfl) _, nofun⟩
  | writing p dst =>
    cases h
    exact ⟨hk.insert (hpc _ rfl) _, hpc⟩
  | numbering p dst =>
    obtain ⟨peer, _, heq⟩ := map_eq_some_iff.mp h
    cases heq
    exact ⟨hk.insert (hpc _ rfl) _, nofun⟩
  | flagging p dst seq ack tsEcr =>
    cases h
    exact ⟨hk, nofun⟩
  | assembling p dst seq ack tsEcr flags =>
    cases h
    exact ⟨hk, nofun⟩
  | received seg => cases h
  | skipped => cases h
  | assembled frame => cases h
  | failed err => cases h

theorem keysIPv4 (h : Reach c.program.step RepliesIPv4 opened t) : KeysIPv4 t.shared := by
  have hall : Program.Holds KeysIPv4 CallIPv4 t := by
    refine Program.invariant h ⟨?_, ?_⟩ ?_ ?_ ?_
    · intro key hkey
      exact absurd hkey (AList.notMem_empty key)
    · intro i p hp
      cases hp
    · intro s r sh p hs hc hr
      obtain ⟨rfl, hcall⟩ := enter_callIPv4 hc hr
      exact ⟨hs.shared, hcall, fun _ _ _ hq => hq⟩
    · intro s i p x sh p' hs _ _ hp hmove
      obtain ⟨hk, hcall⟩ := move_keysIPv4 hs.shared hp hmove
      exact ⟨hk, hcall, fun _ _ _ _ hq => hq⟩
    · intro s e sh hs _ he
      cases e with
      | close =>
        cases he
        exact ⟨hs.shared, fun _ _ _ hq => hq⟩
  exact hall.shared

/-! ## How many sources there are -/

/-- The bytes of a number, as an address; the two lowest are the port. -/
def sourceAt (i : Nat) : UDPAddr :=
  ⟨[UInt8.ofNat (i / 2 ^ 40), UInt8.ofNat (i / 2 ^ 32), UInt8.ofNat (i / 2 ^ 24), UInt8.ofNat (i / 2 ^ 16)],
    (UInt16.ofNat i).toNat, []⟩

theorem UDPAddr.IsIPv4.exists_sourceAt {a : UDPAddr} (h : a.IsIPv4) : ∃ i < 2 ^ 48, sourceAt i = a := by
  obtain ⟨v, port, rfl⟩ := h
  obtain ⟨w, x, y, z, hv⟩ := length_eq_four.mp v.length_toList
  have hw := w.toNat_lt
  have hx := x.toNat_lt
  have hy := y.toNat_lt
  have hz := z.toNat_lt
  have hport := port.toNat_lt
  have hbyte {n : Nat} {b : UInt8} (hn : n % 256 = b.toNat) : UInt8.ofNat n = b := by
    rw [← UInt8.toNat_inj, UInt8.toNat_ofNat']
    exact hn
  refine ⟨w.toNat * 2 ^ 40 + x.toNat * 2 ^ 32 + y.toNat * 2 ^ 24 + z.toNat * 2 ^ 16 + port.toNat, by omega, ?_⟩
  rw [hv, sourceAt, hbyte (b := w) (by omega), hbyte (b := x) (by omega), hbyte (b := y) (by omega),
    hbyte (b := z) (by omega), UInt16.toNat_ofNat']
  simp only [UDPAddr.mk.injEq, and_true, true_and]
  omega

/-- However many segments come, there are never more entries than there are addresses and ports. -/
theorem entries_bounded (c : PckConn) (t : Threads Shared Pc) (h : Reach c.program.step RepliesIPv4 opened t) :
    t.shared.peers.keys.length ≤ 2 ^ 48 := by
  have hsub : t.shared.peers.keys ⊆ (List.range (2 ^ 48)).map fun i => (sourceAt i).string := by
    intro key hkey
    obtain ⟨a, ha, rfl⟩ := keysIPv4 h key hkey
    obtain ⟨i, hi, rfl⟩ := ha.exists_sourceAt
    exact List.mem_map.mpr ⟨i, mem_range.mpr hi, rfl⟩
  have hle := (subperm_of_subset t.shared.peers.keys_nodup hsub).length_le
  rwa [length_map, length_range] at hle

end

def toSamplePeer : Act Request Outside Env → Bool
  | .enter (.write _ addr) => toUDPAddr addr = some samplePeer
  | _ => true

/-- Two packets from one source, and one to it. -/
theorem one_source_one_entry :
    ∃ t : Threads Shared Pc, Reach sampleServer.program.step RepliesIPv4 opened t ∧
      (t.shared.acks.length = 2 ∧ t.shared.peers.keys.length = 1) ∧ t.shared.peers.keys.length ≤ 2 ^ 48 := by
  obtain ⟨t, hreach, hlens⟩ := @exists_reach _ _ sampleServer.program.step (fun _ a => toSamplePeer a = true) opened
    (fun t => t.shared.acks.length = 2 ∧ t.shared.peers.keys.length = 1) _ _
    (reads 0 1 ++ reads 1 5 ++ writes 2 (lit "x")) (by decide +kernel)
  have hreplies : Reach sampleServer.program.step RepliesIPv4 opened t := by
    refine hreach.mono fun s a ha => ?_
    rcases a with (b | ⟨p, addr⟩) | _ | _
    · trivial
    · intro dst hdst
      have hpeer : toUDPAddr addr = some samplePeer := of_decide_eq_true ha
      obtain rfl : dst = samplePeer := Option.some.inj (hdst.symm.trans hpeer)
      exact ⟨#v[10, 0, 0, 2], 40000, rfl⟩
    · trivial
    · trivial
  exact ⟨t, hreplies, hlens, entries_bounded sampleServer t hreplies⟩

end ArangeTun.Pck
