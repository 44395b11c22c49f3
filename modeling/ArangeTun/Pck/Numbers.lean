import ArangeTun.Pck.Conn

/-! # The numbers of the pck carrier -/

namespace ArangeTun.Pck

open Go Transition List Option

/-! ## Serial numbers -/

/-- The second number is ahead of the first in 32-bit serial-number order. -/
def Ahead (a b : UInt32) : Prop := 1 ≤ (b - a).toNat ∧ (b - a).toNat < 2 ^ 31

instance (a b : UInt32) : Decidable (Ahead a b) := inferInstanceAs (Decidable (_ ∧ _))

theorem ahead_iff {a b : UInt32} : Ahead a b ↔ 0 < (b - a).toInt32 := by
  have hint : (b - a).toInt32.toInt = (b - a).toBitVec.toInt := rfl
  have hnat : (b - a).toBitVec.toNat = (b - a).toNat := rfl
  have hzero : (0 : Int32).toInt = 0 := rfl
  have hlt := (b - a).toNat_lt
  rw [Ahead, Int32.lt_iff_toInt_lt, hint, BitVec.toInt_eq_toNat_cond, hnat, hzero]
  split <;> omega

theorem PckPeer.moves_iff {peer : PckPeer} {seg : PckSegment} :
    peer.moves seg = true ↔ peer.ack = 0 ∨ Ahead peer.ack seg.next := by
  rw [PckPeer.moves, decide_eq_true_eq, ahead_iff]

section

variable {peers : Peers} {addr : UDPAddr} {seed : UInt32} {now : Nat} {key : Str} {peer : PckPeer}

theorem mem_peerFor : key ∈ peerFor peers addr seed now ↔ key = addr.string ∨ key ∈ peers := AList.mem_insert _

theorem lookup_peerFor (h : (peerFor peers addr seed now).lookup key = some peer) :
    (∃ old, peers.lookup key = some old ∧ peer.ack = old.ack ∧ peer.seq = old.seq) ∨
      (key ∉ peers ∧ peer.ack = 0) := by
  by_cases hkey : key = addr.string
  · subst hkey
    rw [peerFor, AList.lookup_insert, Option.some.injEq] at h
    subst h
    cases hold : peers.lookup addr.string with
    | some old => exact .inl ⟨old, rfl, rfl, rfl⟩
    | none => exact .inr ⟨AList.lookup_eq_none.mp hold, rfl⟩
  · rw [peerFor, AList.lookup_insert_ne hkey] at h
    exact .inl ⟨peer, h, rfl, rfl⟩

end

section

variable {c : PckConn} {t t' : Threads Shared Pc} {a : Act Request Outside Env}

structure Kept (s s' : Shared) : Prop where
  peers : s'.peers = s.peers
  acks : s'.acks = s.acks
  sent : s'.sent = s.sent

def Pc.acknowledges : Pc → Option PckSegment
  | .acknowledging seg => some seg
  | _ => none

def acknowledges (t : Threads Shared Pc) : Act Request Outside Env → Option PckSegment
  | .move i _ => t.threads[i]?.bind Pc.acknowledges
  | _ => none

theorem step_cases (h : c.program.step t a = some t') :
    Kept t.shared t'.shared ∨
    (∃ addr seed now, t'.shared = { t.shared with peers := peerFor t.shared.peers addr seed now }) ∨
    (∃ seg peer, acknowledges t a = some seg ∧ t.shared.peers.lookup seg.source.string = some peer ∧
      t'.shared = PckConn.acknowledge t.shared seg peer) ∨
    (∃ p dst peer, t.shared.peers.lookup dst.string = some peer ∧ t'.shared = PckConn.number t.shared p dst peer) := by
  cases a with
  | enter r =>
    obtain ⟨⟨sh, p⟩, hp, rfl⟩ := map_eq_some_iff.mp h
    left
    have hsh : sh = t.shared := by
      cases r with
      | frame b =>
        simp only [PckConn.program, PckConn.enter] at hp
        split at hp <;> cases hp <;> rfl
      | write p addr =>
        simp only [PckConn.program, PckConn.enter] at hp
        split at hp
        · cases hp
          rfl
        · split at hp <;> cases hp <;> rfl
    rw [hsh]
    exact ⟨rfl, rfl, rfl⟩
  | env e =>
    cases e with
    | close =>
      cases h
      exact .inl ⟨rfl, rfl, rfl⟩
  | move i x =>
    obtain ⟨pc, hpc, h⟩ := bind_eq_some_iff.mp h
    obtain ⟨⟨sh, pc'⟩, hmove, rfl⟩ := map_eq_some_iff.mp h
    cases pc with
    | reading seg =>
      cases hmove
      exact .inr (.inl ⟨_, _, _, rfl⟩)
    | acknowledging seg =>
      obtain ⟨peer, hpeer, heq⟩ := map_eq_some_iff.mp hmove
      cases heq
      have hseg : acknowledges t (.move i x) = some seg := by
        rw [acknowledges, hpc]
        rfl
      exact .inr (.inr (.inl ⟨seg, peer, hseg, hpeer, rfl⟩))
    | writing p dst =>
      cases hmove
      exact .inr (.inl ⟨_, _, _, rfl⟩)
    | numbering p dst =>
      obtain ⟨peer, hpeer, heq⟩ := map_eq_some_iff.mp hmove
      cases heq
      exact .inr (.inr (.inr ⟨p, dst, peer, hpeer, rfl⟩))
    | flagging p dst seq ack tsEcr =>
      cases hmove
      exact .inl ⟨rfl, rfl, rfl⟩
    | assembling p dst seq ack tsEcr flags =>
      cases hmove
      exact .inl ⟨rfl, rfl, rfl⟩
    | received seg => cases hmove
    | skipped => cases hmove
    | assembled frame => cases hmove
    | failed err => cases hmove

end

/-! ## Sequence numbers -/

structure Sequenced (s : Shared) (key : Str) : Prop where
  entry : s.sentOf key ≠ [] → key ∈ s.peers
  seq : ∀ peer, s.peers.lookup key = some peer → ∀ e ∈ (s.sentOf key).head?, peer.seq = e.1 + UInt32.ofNat e.2
  contiguous : (s.sentOf key).IsChain fun new old => new.1 = old.1 + UInt32.ofNat old.2

section

variable {s s' : Shared} {key : Str}

theorem Sequenced.peerFor (h : Sequenced s key) (addr : UDPAddr) (seed : UInt32) (now : Nat) :
    Sequenced { s with peers := peerFor s.peers addr seed now } key := by
  refine ⟨fun hne => mem_peerFor.mpr (.inr (h.entry hne)), fun peer hpeer e he => ?_, h.contiguous⟩
  rcases lookup_peerFor hpeer with ⟨old, hold, _, hseq⟩ | ⟨hnew, _⟩
  · rw [hseq]
    exact h.seq old hold e he
  · exact absurd (h.entry (ne_nil_of_mem (mem_of_mem_head? he))) hnew

theorem Sequenced.acknowledge (h : Sequenced s key) {seg : PckSegment} {peer : PckPeer}
    (hpeer : s.peers.lookup seg.source.string = some peer) :
    Sequenced (PckConn.acknowledge s seg peer) key := by
  refine ⟨fun hne => (AList.mem_insert _).mpr (.inr (h.entry hne)), fun p hp e he => ?_, h.contiguous⟩
  by_cases hkey : key = seg.source.string
  · subst hkey
    rw [PckConn.acknowledge, AList.lookup_insert, Option.some.injEq] at hp
    subst hp
    exact h.seq peer hpeer e he
  · rw [PckConn.acknowledge, AList.lookup_insert_ne hkey] at hp
    exact h.seq p hp e he

theorem Sequenced.number (h : Sequenced s key) {p : Str} {dst : UDPAddr} {peer : PckPeer}
    (hpeer : s.peers.lookup dst.string = some peer) : Sequenced (PckConn.number s p dst peer) key := by
  by_cases hkey : key = dst.string
  · subst hkey
    have hsent : (PckConn.number s p dst peer).sentOf dst.string = (peer.seq, p.length) :: s.sentOf dst.string := by
      simp [PckConn.number, Shared.sentOf]
    refine ⟨fun _ => (AList.mem_insert _).mpr (.inl rfl), fun q hq e he => ?_, ?_⟩
    · rw [PckConn.number, AList.lookup_insert, Option.some.injEq] at hq
      subst hq
      rw [hsent, head?_cons, mem_some_iff] at he
      subst he
      rfl
    · rw [hsent]
      have hseq := h.seq peer hpeer
      have hchain := h.contiguous
      cases hold : s.sentOf dst.string with
      | nil => exact .singleton _
      | cons e rest =>
        rw [hold] at hseq hchain
        exact .cons_cons (hseq e rfl) hchain
  · have hsent : (PckConn.number s p dst peer).sentOf key = s.sentOf key := by
      simp [PckConn.number, Shared.sentOf, Ne.symm hkey]
    refine ⟨fun hne => ?_, fun q hq e he => ?_, ?_⟩
    · rw [hsent] at hne
      exact (AList.mem_insert _).mpr (.inr (h.entry hne))
    · rw [hsent] at he
      rw [PckConn.number, AList.lookup_insert_ne hkey] at hq
      exact h.seq q hq e he
    · rw [hsent]
      exact h.contiguous

theorem Sequenced.kept (h : Sequenced s key) (hkept : Kept s s') : Sequenced s' key := by
  have hsent : s'.sentOf key = s.sentOf key := by rw [Shared.sentOf, hkept.sent, Shared.sentOf]
  refine ⟨?_, ?_, ?_⟩
  · rw [hsent, hkept.peers]
    exact h.entry
  · rw [hsent, hkept.peers]
    exact h.seq
  · rw [hsent]
    exact h.contiguous

end

variable {c : PckConn} {C : Threads Shared Pc → Act Request Outside Env → Prop} {t : Threads Shared Pc}

theorem sequenced (h : Reach c.program.step C opened t) (key : Str) : Sequenced t.shared key := by
  refine h.invariant (I := fun t => Sequenced t.shared key)
    ⟨by simp [opened, Shared.sentOf], by simp [opened], .nil⟩ fun t a t' ht _ hstep => ?_
  rcases step_cases hstep with hkept | ⟨addr, seed, now, heq⟩ | ⟨seg, peer, _, hpeer, heq⟩ | ⟨p, dst, peer, hpeer, heq⟩
  · exact ht.kept hkept
  · rw [heq]
    exact ht.peerFor addr seed now
  · rw [heq]
    exact ht.acknowledge hpeer
  · rw [heq]
    exact ht.number hpeer

/-! ## Acknowledgements -/

structure Acknowledged (s : Shared) (key : Str) : Prop where
  entry : s.acksOf key ≠ [] → key ∈ s.peers
  ack : ∀ peer, s.peers.lookup key = some peer → peer.ack = (s.acksOf key).headD 0
  forward : (s.acksOf key).IsChain fun new old => Ahead old new

/-- When the acknowledgement for the source has come to zero, the segment ends ahead of zero. -/
def AheadOfZero (s : Shared) (seg : PckSegment) : Prop :=
  (s.acksOf seg.source.string).head? = some 0 → Ahead 0 seg.next

instance (s : Shared) (seg : PckSegment) : Decidable (AheadOfZero s seg) := inferInstanceAs (Decidable (_ → _))

section

variable {s s' : Shared} {key : Str}

theorem Acknowledged.peerFor (h : Acknowledged s key) (addr : UDPAddr) (seed : UInt32) (now : Nat) :
    Acknowledged { s with peers := peerFor s.peers addr seed now } key := by
  refine ⟨fun hne => mem_peerFor.mpr (.inr (h.entry hne)), fun peer hpeer => ?_, h.forward⟩
  rcases lookup_peerFor hpeer with ⟨old, hold, hack, _⟩ | ⟨hnew, hack⟩
  · rw [hack]
    exact h.ack old hold
  · have hnone : s.acksOf key = [] := by
      by_contra hne
      exact hnew (h.entry hne)
    show peer.ack = (s.acksOf key).headD 0
    rw [hack, hnone]
    rfl

theorem Acknowledged.number (h : Acknowledged s key) {p : Str} {dst : UDPAddr} {peer : PckPeer}
    (hpeer : s.peers.lookup dst.string = some peer) : Acknowledged (PckConn.number s p dst peer) key := by
  refine ⟨fun hne => (AList.mem_insert _).mpr (.inr (h.entry hne)), fun q hq => ?_, h.forward⟩
  by_cases hkey : key = dst.string
  · subst hkey
    rw [PckConn.number, AList.lookup_insert, Option.some.injEq] at hq
    subst hq
    exact h.ack peer hpeer
  · rw [PckConn.number, AList.lookup_insert_ne hkey] at hq
    exact h.ack q hq

theorem Acknowledged.ahead (h : Acknowledged s key) {seg : PckSegment} {peer : PckPeer}
    (hkey : key = seg.source.string) (hpeer : s.peers.lookup key = some peer) (hmoves : peer.moves seg = true)
    (hzero : AheadOfZero s seg) : ∀ old ∈ (s.acksOf key).head?, Ahead old seg.next := by
  intro old hold
  have hack : peer.ack = old := by
    rw [h.ack peer hpeer, headD_eq_head?_getD, hold]
    rfl
  rcases PckPeer.moves_iff.mp hmoves with hz | hahead
  · rw [← hack, hz] at hold ⊢
    rw [hkey] at hold
    exact hzero hold
  · rw [← hack]
    exact hahead

theorem Acknowledged.acknowledge (h : Acknowledged s key) {seg : PckSegment} {peer : PckPeer}
    (hpeer : s.peers.lookup seg.source.string = some peer) (hzero : AheadOfZero s seg) :
    Acknowledged (PckConn.acknowledge s seg peer) key := by
  by_cases hkey : key = seg.source.string
  · have hlookup : (PckConn.acknowledge s seg peer).peers.lookup key = some (peer.receive seg) := by
      rw [hkey]
      exact AList.lookup_insert _
    have hmem : key ∈ (PckConn.acknowledge s seg peer).peers := (AList.mem_insert _).mpr (.inl hkey)
    cases hmoves : peer.moves seg with
    | true =>
      have hacks : (PckConn.acknowledge s seg peer).acksOf key = seg.next :: s.acksOf key := by
        simp [PckConn.acknowledge, Shared.acksOf, hmoves, hkey]
      refine ⟨fun _ => hmem, fun q hq => ?_, ?_⟩
      · rw [hlookup, Option.some.injEq] at hq
        rw [← hq, hacks, PckPeer.receive, if_pos hmoves]
        rfl
      · have hahead := h.ahead hkey (hkey ▸ hpeer) hmoves hzero
        have hchain := h.forward
        rw [hacks]
        cases hold : s.acksOf key with
        | nil => exact .singleton _
        | cons old rest =>
          rw [hold] at hahead hchain
          exact .cons_cons (hahead old rfl) hchain
    | false =>
      have hacks : (PckConn.acknowledge s seg peer).acksOf key = s.acksOf key := by
        simp [PckConn.acknowledge, Shared.acksOf, hmoves]
      refine ⟨fun _ => hmem, fun q hq => ?_, ?_⟩
      · rw [hlookup, Option.some.injEq] at hq
        rw [← hq, hacks, PckPeer.receive, if_neg (by rw [hmoves]; decide)]
        exact h.ack peer (hkey ▸ hpeer)
      · rw [hacks]
        exact h.forward
  · have hacks : (PckConn.acknowledge s seg peer).acksOf key = s.acksOf key := by
      cases hmoves : peer.moves seg <;> simp [PckConn.acknowledge, Shared.acksOf, hmoves, Ne.symm hkey]
    refine ⟨fun hne => ?_, fun q hq => ?_, ?_⟩
    · rw [hacks] at hne
      exact (AList.mem_insert _).mpr (.inr (h.entry hne))
    · rw [PckConn.acknowledge, AList.lookup_insert_ne hkey] at hq
      rw [hacks]
      exact h.ack q hq
    · rw [hacks]
      exact h.forward

theorem Acknowledged.kept (h : Acknowledged s key) (hkept : Kept s s') : Acknowledged s' key := by
  have hacks : s'.acksOf key = s.acksOf key := by rw [Shared.acksOf, hkept.acks, Shared.acksOf]
  refine ⟨?_, ?_, ?_⟩
  · rw [hacks, hkept.peers]
    exact h.entry
  · rw [hacks, hkept.peers]
    exact h.ack
  · rw [hacks]
    exact h.forward

end

/-- The condition on a run: while the acknowledgement stands at zero, only a segment that ends ahead of zero comes. -/
def LeavesZeroForward (t : Threads Shared Pc) (a : Act Request Outside Env) : Prop :=
  ∀ seg ∈ acknowledges t a, AheadOfZero t.shared seg

instance (t : Threads Shared Pc) (a : Act Request Outside Env) : Decidable (LeavesZeroForward t a) :=
  inferInstanceAs (Decidable (∀ seg ∈ _, _))

theorem acknowledged (h : Reach c.program.step LeavesZeroForward opened t) (key : Str) : Acknowledged t.shared key := by
  refine h.invariant (I := fun t => Acknowledged t.shared key)
    ⟨by simp [opened, Shared.acksOf], by simp [opened], .nil⟩ fun t a t' ht hc hstep => ?_
  rcases step_cases hstep with hkept | ⟨addr, seed, now, heq⟩ | ⟨seg, peer, hack, hpeer, heq⟩ | ⟨p, dst, peer, hpeer, heq⟩
  · exact ht.kept hkept
  · rw [heq]
    exact ht.peerFor addr seed now
  · rw [heq]
    exact ht.acknowledge hpeer (hc seg hack)
  · rw [heq]
    exact ht.number hpeer

/-- For any peer, however the calls interleave: its numbers are contiguous, and each new acknowledgement is ahead. -/
theorem numbers_move_forward (c : PckConn) (t : Threads Shared Pc) (key : Str) :
    (Reach c.program.step LeavesZeroForward opened t →
      (t.shared.acksOf key).IsChain fun new old => Ahead old new) ∧
    (Reach c.program.step Any opened t →
      (t.shared.sentOf key).IsChain fun new old => new.1 = old.1 + UInt32.ofNat old.2) :=
  ⟨fun h => (acknowledged h key).forward, fun h => (sequenced h key).contiguous⟩

/-! ## Runs -/

def sampleServer : PckConn :=
  { egress := ⟨none, [192, 168, 0, 1], [], none, 0, false⟩
    localPort := 443
    flags := [0x18]
    flags_ne := by decide
    tsBase := 0 }

def samplePacket (seq : UInt32) : Str :=
  [0x45, 0, 0, 44, 0, 1, 0x40, 0, 64, 6, 0, 0, 10, 0, 0, 2, 192, 168, 0, 1, 0x9c, 0x40, 0x01, 0xbb] ++ putUint32 seq ++
    [0, 0, 0, 0, 0x50, 0x18, 0xff, 0xff, 0, 0, 0, 0, 1, 2, 3, 4]

def samplePeer : UDPAddr := ⟨[10, 0, 0, 2], 40000, []⟩

def reads (i : Nat) (seq : UInt32) : List (Act Request Outside Env) :=
  [.enter (.frame (samplePacket seq)), .move i ⟨5, 0, []⟩, .move i ⟨5, 0, []⟩]

def writes (i : Nat) (p : Str) : List (Act Request Outside Env) :=
  [.enter (.write p (.udp samplePeer)), .move i ⟨5, 0, []⟩, .move i ⟨5, 0, []⟩]

/-- The acknowledgement runs over zero, with two segments sent in between. -/
theorem numbers_wrap_forward :
    ∃ t : Threads Shared Pc, (t.shared.acksOf samplePeer.string = [2, 4294967294] ∧
        t.shared.sentOf samplePeer.string = [(7, 1), (5, 2)]) ∧
      (t.shared.acksOf samplePeer.string).IsChain (fun new old => Ahead old new) ∧
      (t.shared.sentOf samplePeer.string).IsChain fun new old => new.1 = old.1 + UInt32.ofNat old.2 := by
  obtain ⟨t, hreach, hlogs⟩ := @exists_reach _ _ sampleServer.program.step LeavesZeroForward opened
    (fun t => t.shared.acksOf samplePeer.string = [2, 4294967294] ∧
      t.shared.sentOf samplePeer.string = [(7, 1), (5, 2)]) _ _
    (reads 0 4294967290 ++ (writes 1 [1, 2] ++ (writes 2 [1] ++ reads 3 4294967294))) (by decide +kernel)
  have h := numbers_move_forward sampleServer t samplePeer.string
  exact ⟨t, hlogs, h.1 hreach, h.2 (hreach.mono fun _ _ _ => trivial)⟩

/-- A segment ends at zero, and then one that was sent before it arrives. -/
theorem acknowledgement_moves_back :
    ∃ t, Reach sampleServer.program.step Any opened t ∧
      t.shared.acksOf samplePeer.string = [4294967200, 0] ∧
      ¬ (t.shared.acksOf samplePeer.string).IsChain fun new old => Ahead old new := by
  obtain ⟨t, hreach, hacks⟩ := @exists_reach _ _ sampleServer.program.step Any opened
    (fun t => t.shared.acksOf samplePeer.string = [4294967200, 0]) _ _
    (reads 0 4294967292 ++ reads 1 4294967196) (by decide +kernel)
  refine ⟨t, hreach, hacks, fun h => ?_⟩
  rw [hacks, isChain_cons_cons] at h
  exact absurd h.1 (by decide)

end ArangeTun.Pck
