import ArangeTun.Pck.Model
import ArangeTun.Transition.Table

/-! # Carriers and their ports -/

namespace ArangeTun.Pck

open Go Transition List Option

variable {token : Str} {s s' : State} {a : Action}

theorem pckClientPortBase_le (token : Str) : (pckClientPortBase token).toNat ≤ 60639 := by
  simp only [pckClientPortBase, pckPortSpan]
  generalize (Sha256.sum256 (lit "arange-tun-pck-v1:" ++ token)).getD 0 0 = hi
  generalize (Sha256.sum256 (lit "arange-tun-pck-v1:" ++ token)).getD 1 0 = lo
  generalize hi.toUInt16 * 256 + lo.toUInt16 = u
  have hmod : (u % (28000 - 128)).toNat < 27872 := by
    rw [UInt16.toNat_mod]
    exact Nat.mod_lt _ (by decide)
  rw [UInt16.toNat_add]
  have h32768 : (32768 : UInt16).toNat = 32768 := rfl
  omega

theorem nextPckClientPort_toNat {seq : UInt32} {n : Nat} (h : seq.toNat = n % 2 ^ 32) :
    (nextPckClientPort (pckClientPortBase token) seq).1.toNat =
      (pckClientPortBase token).toNat + n % 128 := by
  have hbase := pckClientPortBase_le token
  have h128 : (128 : UInt16).toNat = 128 := rfl
  simp only [nextPckClientPort, pckPortSpan, UInt16.toNat_add, UInt16.toNat_mod, UInt32.toNat_toUInt16, h, h128]
  omega

structure Numbered (token : Str) (s : State) : Prop where
  seq : s.pckPortSeq.toNat = s.carriers.length % 2 ^ 32
  port : ∀ (i : Nat) (c : Carrier), s.carriers[i]? = some c →
    c.localPort.toNat = (pckClientPortBase token).toNat + i % 128

theorem numbered_step (h : Numbered token s) (hs : step token s a = some s') : Numbered token s' := by
  cases a with
  | newPckConn egress rx tx =>
    simp only [step] at hs
    split at hs
    · cases hs
      refine ⟨?_, forall_concat h.port (nextPckClientPort_toNat h.seq)⟩
      simp only [nextPckClientPort, UInt32.toNat_add, h.seq, length_append, length_singleton]
      have hone : (1 : UInt32).toNat = 1 := rfl
      omega
    · cases hs
      exact h
  | close i =>
    obtain ⟨c, hc, hs⟩ := bind_eq_some_iff.mp hs
    obtain ⟨_, rfl⟩ := enabled hs
    refine ⟨by simpa using h.seq, forall_set h.port ?_⟩
    exact h.port i c hc

theorem numbered_of_reach {C : State → Action → Prop} (h : Reach (step token) C .initial s) :
    Numbered token s :=
  h.invariant (I := Numbered token) ⟨rfl, by simp [State.initial]⟩ fun _ _ _ hi _ hs => numbered_step hi hs

theorem Numbered.guarded (h : Numbered token s) : PortsGuarded token s := by
  intro c hc
  obtain ⟨i, hi⟩ := getElem?_of_mem hc
  have := h.port i c hi
  omega

theorem Numbered.port_eq (h : Numbered token s) {i j : Nat} {c d : Carrier} (hc : s.carriers[i]? = some c)
    (hd : s.carriers[j]? = some d) : c.localPort = d.localPort ↔ i % 128 = j % 128 := by
  rw [← UInt16.toNat_inj, h.port i c hc, h.port j d hd]
  omega

theorem portsDistinct_close {i : Nat} {c : Carrier} (h : PortsDistinct s) :
    PortsDistinct { s with carriers := s.carriers.set i { c with opened := false } } := by
  have hopen : ∀ (j : Nat) (d : Carrier),
      (s.carriers.set i { c with opened := false })[j]? = some d → d.opened = true →
        s.carriers[j]? = some d :=
    forall_set (P := fun j d => d.opened = true → s.carriers[j]? = some d) (fun _ _ hd _ => hd)
      fun hf => by cases hf
  intro j k d e hd he hne hdo heo
  exact h j k d e (hopen j d hd hdo) (hopen k e he heo) hne hdo heo

theorem portsDistinct_concat {d : Carrier} {seq : UInt32} (h : PortsDistinct s) :
    PortsDistinct ⟨seq, s.carriers ++ [d]⟩ ↔
      (d.opened = true → ∀ (i : Nat) (c : Carrier), s.carriers[i]? = some c → c.opened = true →
        c.localPort ≠ d.localPort) := by
  constructor
  · intro hd hdo i c hc hco
    have hlt := (List.getElem?_eq_some_iff.mp hc).1
    exact hd i s.carriers.length c d (getElem?_concat_of_some hc) getElem?_concat_length (by omega) hco hdo
  · intro hnew i j c e hc he hne hco heo
    rcases getElem?_concat_cases hc with hi | ⟨rfl, rfl⟩
    · rcases getElem?_concat_cases he with hj | ⟨rfl, rfl⟩
      · exact h i j c e hi hj hne hco heo
      · exact hnew heo i c hi hco
    · rcases getElem?_concat_cases he with hj | ⟨rfl, rfl⟩
      · exact Ne.symm (hnew hco j e hj heo)
      · exact absurd rfl hne

theorem portsDistinct_step (hn : Numbered token s) (h : PortsDistinct s) (hs : step token s a = some s') :
    PortsDistinct s' ↔ SlotFree s a := by
  have hn' := numbered_step hn hs
  cases a with
  | close i =>
    obtain ⟨c, hc, hs⟩ := bind_eq_some_iff.mp hs
    obtain ⟨_, rfl⟩ := enabled hs
    exact iff_of_true (portsDistinct_close h) trivial
  | newPckConn egress rx tx =>
    cases egress with
    | false =>
      cases hs
      exact iff_of_true h fun he => by cases he
    | true =>
      cases hs
      have hport (i : Nat) (c : Carrier) (hc : s.carriers[i]? = some c) :=
        hn'.port_eq (getElem?_concat_of_some hc) getElem?_concat_length
      rw [portsDistinct_concat h]
      constructor
      · intro hd _ hrx htx i c hc hco hm
        exact hd (by simp [hrx, htx]) i c hc hco ((hport i c hc).mpr hm)
      · intro hfree ho i c hc hco he
        simp only [Bool.and_eq_true] at ho
        exact hfree rfl ho.1 ho.2 i c hc hco ((hport i c hc).mp he)

/-- While carriers are opened only into free slots, open carriers have different ports of the guarded range. -/
theorem portsDistinct_iff_slotFree (h : Reach (step token) SlotFree .initial s) :
    (PortsDistinct s ∧ PortsGuarded token s) ∧
      ∀ a s', step token s a = some s' → (PortsDistinct s' ↔ SlotFree s a) := by
  have hd : PortsDistinct s :=
    h.invariant_with (I := PortsDistinct) (fun _ hr => numbered_of_reach hr)
      (fun i j c d hc => by simp [State.initial] at hc)
      fun _ _ _ hn hi hc hs => (portsDistinct_step hn hi hs).mpr hc
  have hn := numbered_of_reach h
  exact ⟨⟨hd, hn.guarded⟩, fun a s' hs => portsDistinct_step hn hd hs⟩

def State.next (token : Str) (s : State) : Carrier :=
  ⟨(nextPckClientPort (pckClientPortBase token) s.pckPortSeq).1, true⟩

theorem reach_open {C : State → Action → Prop} (h : Reach (step token) C .initial s)
    (hc : C s (.newPckConn true true true)) :
    Reach (step token) C .initial ⟨s.pckPortSeq + 1, s.carriers ++ [s.next token]⟩ :=
  .next h hc rfl

theorem portsDistinct_twoCarriers :
    ∃ s, Reach (step (lit "t")) SlotFree .initial s ∧ s.openCount = 2 ∧ PortsDistinct s ∧
      PortsGuarded (lit "t") s := by
  have hone : Reach (step (lit "t")) SlotFree .initial ⟨1, [State.initial.next (lit "t")]⟩ :=
    reach_open .init fun _ _ _ i c hc => by simp [State.initial] at hc
  have htwo := reach_open hone fun _ _ _ i c hc _ => by
    have hlt := (List.getElem?_eq_some_iff.mp hc).1
    simp only [length_singleton] at hlt ⊢
    omega
  exact ⟨_, htwo, rfl, (portsDistinct_iff_slotFree htwo).1⟩

theorem reach_churn (token : Str) (n : Nat) :
    ∃ s, Reach (step token) FewOpen .initial s ∧ s.carriers.length = n + 1 ∧ s.openCount = 1 ∧
      ∃ c, s.carriers[0]? = some c ∧ c.opened = true := by
  induction n with
  | zero =>
    exact ⟨_, reach_open .init (show State.initial.openCount < 128 by decide), rfl, rfl, _, rfl, rfl⟩
  | succ n ih =>
    obtain ⟨s, hr, hlen, hcount, c, hc, hco⟩ := ih
    have hopen := reach_open hr (show s.openCount < 128 by omega)
    have hclose : Reach (step token) FewOpen .initial
        ⟨s.pckPortSeq + 1, s.carriers ++ [{ s.next token with opened := false }]⟩ := by
      refine .next (a := Action.close s.carriers.length) hopen trivial ?_
      simp [step, State.next]
    refine ⟨_, hclose, by simp [hlen], ?_, c, getElem?_concat_of_some hc, hco⟩
    simpa [State.openCount] using hcount

/-- A long-lived carrier and the one that takes the 128th port after it. -/
theorem carrier_port_shared :
    ∃ s, Reach (step (lit "t")) FewOpen .initial s ∧ ¬ PortsDistinct s := by
  obtain ⟨s, hr, hlen, hcount, c, hc, hco⟩ := reach_churn (lit "t") 127
  have hopen := reach_open hr (show s.openCount < 128 by omega)
  refine ⟨_, hopen, fun h => ?_⟩
  have hfirst := getElem?_concat_of_some (b := s.next (lit "t")) hc
  have hlast := getElem?_concat_length (l := s.carriers) (a := s.next (lit "t"))
  refine h 0 s.carriers.length c _ hfirst hlast (by omega) hco rfl ?_
  exact ((numbered_of_reach hopen).port_eq hfirst hlast).mpr (by rw [hlen])

end ArangeTun.Pck
