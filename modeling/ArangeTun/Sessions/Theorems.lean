import ArangeTun.Sessions.Model
import ArangeTun.Transition.Table

/-! # The current session and the reported peer -/

namespace ArangeTun.Sessions

open Go Transition List Option

variable {server : Server} {s s' : State} {i : Nat} {x : Session}

def Action.tears (i : Nat) : Action → Prop
  | .drop j | .leave j | .retire j | .close j => j = i
  | .connect _ | .publish _ | .reportPeer _ | .warmUp _ => False

structure Agreement (server : Server) (s : State) : Prop where
  /-- The teardown of a session that is not the current one leaves the current one. -/
  keeps : ∀ (i j : Nat) (a : Action) (s' : State), a.tears i → s.current = some j → i ≠ j →
    step server s a = some s' → s'.current = some j
  agree : s.Quiet → s.peerAddr = s.currentPeer

theorem current_of_tears {j : Nat} {a : Action} (ha : a.tears i) (hj : s.current = some j) (hij : i ≠ j)
    (h : step server s a = some s') : s'.current = some j := by
  cases a with
  | drop k =>
    obtain ⟨x, -, h⟩ := bind_eq_some_iff.mp h
    cases h
    exact hj
  | leave k | close k =>
    obtain ⟨x, -, h⟩ := bind_eq_some_iff.mp h
    obtain ⟨-, rfl⟩ := enabled h
    exact hj
  | retire k =>
    cases ha
    obtain ⟨x, -, h⟩ := bind_eq_some_iff.mp h
    obtain ⟨-, h⟩ := ite_none_right_eq_some.mp h
    rw [if_neg (by simp [State.setSession, hj, hij.symm]), Option.some.injEq] at h
    subst h
    exact hj
  | connect | publish | reportPeer | warmUp => exact ha.elim

/-- A session reports its peer while it is the current one, or while the current one has not reported yet. -/
def ReportsCurrent (s : State) : Action → Prop
  | .reportPeer i => s.current = some i ∨ ∃ j ∈ s.current, ∃ y ∈ s.sessions[j]?, y.pc = .reporting
  | _ => True

instance (s : State) : (a : Action) → Decidable (ReportsCurrent s a)
  | .reportPeer i => inferInstanceAs (Decidable (s.current = some i ∨ ∃ j ∈ s.current, ∃ y ∈ s.sessions[j]?, _))
  | .connect _ | .publish _ | .warmUp _ | .drop _ | .leave _ | .retire _ | .close _ => isTrue trivial

/-- A current session that has reported is the one reported, and without a current session none is. -/
structure Inv (s : State) : Prop where
  known : ∀ i : Nat, s.current = some i → ∃ x : Session, s.sessions[i]? = some x ∧ x.pc ≠ .publishing
  reported : ∀ (i : Nat) (x : Session), s.current = some i → s.sessions[i]? = some x → x.pc = .reporting ∨
    s.peerAddr = some x.peer
  none : s.current = none → s.peerAddr = none

theorem inv_initial : Inv initial where
  known _ h := by cases h
  reported _ _ h := by cases h
  none _ := rfl

theorem Inv.setSession (x' : Session) (h : Inv s) (hx : s.sessions[i]? = some x) (hpeer : x'.peer = x.peer)
    (hpublishing : x'.pc = .publishing → x.pc = .publishing) (hreporting : x.pc = .reporting → x'.pc = .reporting) :
    Inv (s.setSession i x') where
  known j hj := exists_set (h.known j hj) hx fun hne hpc => hne (hpublishing hpc)
  reported j y hj hy := by
    rcases getElem?_set_cases hy with ⟨rfl, rfl⟩ | ⟨-, hy⟩
    · rw [hpeer]
      exact (h.reported i x hj hx).imp_left hreporting
    · exact h.reported j y hj hy
  none := h.none

theorem Inv.connect (peer : Str) (h : Inv s) :
    Inv { s with sessions := s.sessions ++ [⟨peer, false, .publishing⟩] } where
  known j hj := exists_concat (h.known j hj)
  reported j y hj hy := by
    rcases getElem?_concat_cases hy with hy | ⟨rfl, -⟩
    · exact h.reported j y hj hy
    · obtain ⟨x, hx, -⟩ := h.known _ hj
      have := (List.getElem?_eq_some_iff.mp hx).1
      omega
  none := h.none

theorem Inv.publish (x : Session) (hx : s.sessions[i]? = some x) :
    Inv { s.setSession i { x with pc := .reporting } with current := some i } where
  known j hj := by
    cases hj
    exact ⟨_, getElem?_set_self hx, Pc.noConfusion⟩
  reported j y hj hy := by
    cases hj
    have hself := getElem?_set_self (b := { x with pc := Pc.reporting }) hx
    exact .inl (by cases hself.symm.trans hy; rfl)
  none hj := by cases hj

theorem Inv.report {n : Nat} (h : Inv s) (hx : s.sessions[i]? = some x)
    (hc : s.current = some i ∨ ∃ j ∈ s.current, ∃ y ∈ s.sessions[j]?, y.pc = .reporting) :
    Inv { s.setSession i { x with pc := .serving n } with peerAddr := some x.peer } where
  known j hj := exists_set (h.known j hj) hx fun _ => Pc.noConfusion
  reported j y hj hy := by
    rcases getElem?_set_cases hy with ⟨rfl, rfl⟩ | ⟨hne, hy⟩
    · exact .inr rfl
    · rcases hc with hi | ⟨k, hk, z, hz, hreporting⟩
      · exact absurd (Option.some.inj (hi.symm.trans hj)) hne
      · cases Option.some.inj (hj.symm.trans hk)
        cases Option.some.inj (hy.symm.trans hz)
        exact .inl hreporting
  none hj := by
    change s.current = Option.none at hj
    rcases hc with hi | ⟨k, hk, -⟩
    · rw [hi] at hj
      cases hj
    · rw [mem_def.mp hk] at hj
      cases hj

theorem Inv.advance (x' : Session) (h : Inv s) (hx : s.sessions[i]? = some x) (hpeer : x'.peer = x.peer)
    (hpast : x.pc ≠ .reporting) (hpc : x'.pc ≠ .publishing) : Inv (s.setSession i x') :=
  h.setSession x' hx hpeer (fun hp => absurd hp hpc) fun hr => absurd hr hpast

theorem Inv.step {a : Action} (h : Inv s) (hc : ReportsCurrent s a) (hstep : step server s a = some s') : Inv s' := by
  cases a with
  | connect peer =>
    cases hstep
    exact h.connect peer
  | publish i =>
    simp only [Sessions.step, bind_eq_bind, bind_eq_some_iff, ite_none_right_eq_some,
      Option.some.injEq] at hstep
    obtain ⟨x, hx, -, rfl⟩ := hstep
    exact Inv.publish x hx
  | reportPeer i =>
    simp only [Sessions.step, bind_eq_bind, bind_eq_some_iff, ite_none_right_eq_some,
      Option.some.injEq] at hstep
    obtain ⟨x, hx, -, rfl⟩ := hstep
    exact h.report hx hc
  | warmUp i =>
    simp only [Sessions.step, bind_eq_bind, bind_eq_some_iff] at hstep
    obtain ⟨x, hx, hstep⟩ := hstep
    split at hstep
    · rename_i n hpc
      cases hstep
      exact h.advance _ hx rfl (by simp [hpc]) Pc.noConfusion
    · cases hstep
  | drop i =>
    simp only [Sessions.step, bind_eq_bind, bind_eq_some_iff, Option.some.injEq] at hstep
    obtain ⟨x, hx, rfl⟩ := hstep
    exact h.setSession _ hx rfl id id
  | leave i =>
    simp only [Sessions.step, bind_eq_bind, bind_eq_some_iff, ite_none_right_eq_some,
      Option.some.injEq] at hstep
    obtain ⟨x, hx, ⟨hpc, -⟩, rfl⟩ := hstep
    exact h.advance _ hx rfl (by simp [hpc]) Pc.noConfusion
  | retire i =>
    simp only [Sessions.step, bind_eq_bind, bind_eq_some_iff, ite_none_right_eq_some] at hstep
    obtain ⟨x, hx, hpc, hstep⟩ := hstep
    split at hstep
    · cases hstep
      refine ⟨?_, ?_, fun _ => rfl⟩
      · intro _ hj
        cases hj
      · intro _ _ hj
        cases hj
    · cases hstep
      exact h.advance _ hx rfl (by simp [hpc]) Pc.noConfusion
  | close i =>
    simp only [Sessions.step, bind_eq_bind, bind_eq_some_iff, ite_none_right_eq_some,
      Option.some.injEq] at hstep
    obtain ⟨x, hx, hpc, rfl⟩ := hstep
    exact h.advance _ hx rfl (by simp [hpc]) Pc.noConfusion

theorem Inv.agree (h : Inv s) (hquiet : s.Quiet) : s.peerAddr = s.currentPeer := by
  unfold State.currentPeer
  cases hcurrent : s.current with
  | none =>
    rw [h.none hcurrent]
    rfl
  | some i =>
    obtain ⟨x, hx, -⟩ := h.known i hcurrent
    rw [bind_some, hx, map_some]
    rcases h.reported i x hcurrent hx with hpc | hpeer
    · have := hquiet x (mem_of_getElem? hx)
      rw [hpc] at this
      cases this
    · exact hpeer

/-- Any number of clients, and any interleaving of their setups and teardowns in which no report comes too late. -/
theorem agreement_of_reportsCurrent (h : Reach (step server) ReportsCurrent initial s) : Agreement server s := by
  have hinv : Inv s := h.invariant inv_initial fun _ _ _ hs hc hstep => hs.step hc hstep
  refine ⟨?_, hinv.agree⟩
  intro i j a s' ha hj hij hstep
  exact current_of_tears ha hj hij hstep

def takeover : List Action :=
  [.connect (lit "a"), .publish 0, .connect (lit "b"), .publish 1, .reportPeer 0, .reportPeer 1, .leave 0, .retire 0,
    .close 0]

theorem agreement_takeover : ∃ s, Reach (step .frp) ReportsCurrent initial s ∧
    (s.Quiet ∧ s.current = some 1 ∧ s.peerAddr = some (lit "b")) ∧ Agreement .frp s := by
  have hrun : ∃ s, Reach (step .frp) ReportsCurrent initial s ∧
      (s.Quiet ∧ s.current = some 1 ∧ s.peerAddr = some (lit "b")) :=
    exists_reach takeover (by decide +kernel)
  obtain ⟨s, hreach, hs⟩ := hrun
  exact ⟨s, hreach, hs, agreement_of_reportsCurrent hreach⟩

def lateReport (warmUps : List Action) : List Action :=
  [.connect (lit "a"), .publish 0, .connect (lit "b"), .publish 1, .reportPeer 1, .reportPeer 0] ++ warmUps ++
    [.leave 0, .retire 0, .close 0]

/-- On either server the current client is the second one and the peer reported is the first one, for good. -/
theorem displaced_peer_reported :
    (∃ s, Reach (step .frp) Any initial s ∧
      (s.Quiet ∧ s.currentPeer = some (lit "b") ∧ s.peerAddr = some (lit "a"))) ∧
    ∃ s, Reach (step .rathole) Any initial s ∧
      (s.Quiet ∧ s.currentPeer = some (lit "b") ∧ s.peerAddr = some (lit "a")) :=
  ⟨exists_reach (lateReport []) (by decide +kernel),
    exists_reach (lateReport [.warmUp 0, .warmUp 0]) (by decide +kernel)⟩

end ArangeTun.Sessions
