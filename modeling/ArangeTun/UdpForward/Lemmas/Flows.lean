import ArangeTun.Transition.Table
import ArangeTun.UdpForward.Lemmas.Step

/-! # The table and the queues of the flows -/

namespace ArangeTun.UdpForward

open Go Transition List

def Phase.listed : Phase → Bool
  | .fresh | .entered | .signalled => true
  | .forgotten | .finished => false

def receivedFrom (key : Str) (received : List (Str × Str)) : List Str :=
  (received.filter (·.1 = key)).map Prod.snd

structure Tabled (s : State) : Prop where
  entry : ∀ (key : Str) (i : Nat), s.table key = some i → ∃ f : Flow, s.flows[i]? = some f ∧ f.key = key
  listed : ∀ (i : Nat) (f : Flow), s.flows[i]? = some f → (s.table f.key = some i ↔ f.phase.listed = true)
  returned : ∀ (c : Nat) (call : CloseCall), s.calls[c]? = some call → call.pc = .returned →
    ∃ f : Flow, s.flows[call.flow]? = some f ∧ f.phase = .finished

/-- The bytes that were read and those that are pending are the frames of some of the datagrams, the queued ones are
later. -/
def Flow.Yields (f : Flow) (filed : List (Str × Str)) : Prop :=
  ∃ ds : List Str, f.output ++ f.pending = ds.flatMap frame ∧
    (ds ++ f.queue.buf).Sublist (receivedFrom f.key filed)

/-- What was received is what was filed and the datagram that `run` has in hand. -/
def Holds (s : State) (filed : List (Str × Str)) : Prop :=
  match s.run with
  | .filing peer payload => s.received = filed ++ [(peer, payload)]
  | .delivering i _ payload => ∃ f : Flow, s.flows[i]? = some f ∧ s.received = filed ++ [(f.key, payload)]
  | .reading | .admitting _ | .refusing _ | .returned => s.received = filed

structure Inv (s : State) (filed : List (Str × Str)) : Prop where
  tabled : Tabled s
  yields : ∀ (i : Nat) (f : Flow), s.flows[i]? = some f → f.Yields filed
  holds : Holds s filed

/-! ## The pieces -/

section

variable {s s' : State} {f f' : Flow} {i : Nat} {filed : List (Str × Str)}

theorem Tabled.congr (h : Tabled s) (htable : s'.table = s.table) (hflows : s'.flows = s.flows)
    (hcalls : s'.calls = s.calls) : Tabled s' := by
  obtain ⟨hentry, hlisted, hreturned⟩ := h
  refine ⟨?_, ?_, ?_⟩
  · rw [htable, hflows]
    exact hentry
  · rw [htable, hflows]
    exact hlisted
  · rw [hcalls, hflows]
    exact hreturned

theorem Tabled.setFlow (h : Tabled s) (hi : s.flows[i]? = some f) (hkey : f'.key = f.key)
    (hphase : f'.phase = f.phase) : Tabled (s.setFlow i f') where
  entry key j hj := exists_set (h.entry key j hj) hi fun hk => hkey.trans hk
  listed := by
    apply forall_set h.listed
    rw [hkey, hphase]
    exact h.listed i f hi
  returned c call hc hpc := exists_set (h.returned c call hc hpc) hi fun hf => hphase.trans hf

theorem Tabled.startClose (h : Tabled s) (hcalls : s'.calls = s.calls ++ [⟨i, .entering⟩])
    (htable : s'.table = s.table) (hflows : s'.flows = s.flows) : Tabled s' := by
  refine ⟨?_, ?_, ?_⟩
  · rw [htable, hflows]
    exact h.entry
  · rw [htable, hflows]
    exact h.listed
  · rw [hcalls, hflows]
    exact forall_concat h.returned fun hpc => by cases hpc

theorem receivedFrom_concat (key peer payload : Str) (filed : List (Str × Str)) :
    receivedFrom key (filed ++ [(peer, payload)]) =
      receivedFrom key filed ++ if peer = key then [payload] else [] := by
  by_cases h : peer = key <;> simp [receivedFrom, filter_append, h]

theorem Flow.Yields.concat (h : f.Yields filed) (d : Str × Str) : f.Yields (filed ++ [d]) := by
  obtain ⟨ds, hds, hsub⟩ := h
  refine ⟨ds, hds, hsub.trans ?_⟩
  rw [receivedFrom_concat]
  exact sublist_append_left ..

theorem Flow.Yields.newUDPFlow (now : Nat) (key : Str) : (newUDPFlow now key).Yields filed :=
  ⟨[], rfl, nil_sublist _⟩

theorem Flow.Yields.deliver {now : Nat} {payload : Str} {queued : Bool} (h : f.Yields filed)
    (hf : f.deliver now payload queued = some f') :
    f'.Yields (filed ++ [(f.key, payload)]) ∧ f'.key = f.key ∧ f'.phase = f.phase := by
  rcases Flow.deliver_cases hf with ⟨-, rfl⟩ | ⟨-, queue, hsend, rfl⟩
  · exact ⟨h.concat _, rfl, rfl⟩
  · obtain ⟨ds, hds, hsub⟩ := h
    refine ⟨⟨ds, hds, ?_⟩, rfl, rfl⟩
    rw [receivedFrom_concat, if_pos rfl, (Chan.trySend_eq_some hsend).2, ← append_assoc]
    exact hsub.append (List.Sublist.refl _)

theorem Flow.Yields.read {now n : Nat} {r : Flow × Option Str} (h : f.Yields filed) (hr : f.read now n = some r) :
    r.1.Yields filed ∧ r.1.key = f.key ∧ r.1.phase = f.phase := by
  obtain ⟨ds, hds, hsub⟩ := h
  rcases Flow.read_cases hr with rfl | ⟨payload, queue, hpending, hrecv, rfl⟩ | ⟨-, -, rfl⟩
  · refine ⟨⟨ds, ?_, hsub⟩, rfl, rfl⟩
    simp only [Flow.hand, append_assoc, take_append_drop]
    exact hds
  · refine ⟨⟨ds ++ [payload], ?_, ?_⟩, rfl, rfl⟩
    · simp only [Flow.hand, append_assoc, take_append_drop, flatMap_append, flatMap_singleton]
      rw [← hds, hpending, append_nil]
    · rw [append_assoc]
      rw [Chan.tryRecv_eq_some hrecv] at hsub
      exact hsub
  · exact ⟨⟨ds, hds, hsub⟩, rfl, rfl⟩

theorem Holds.congr (h : Holds s filed) (hrun : s'.run = s.run) (hreceived : s'.received = s.received)
    (hflows : ∀ (key : Str) (j : Nat), (∃ f : Flow, s.flows[j]? = some f ∧ f.key = key) →
      ∃ f : Flow, s'.flows[j]? = some f ∧ f.key = key) : Holds s' filed := by
  unfold Holds at h ⊢
  rw [hrun, hreceived]
  cases hr : s.run with
  | delivering j known payload =>
    rw [hr] at h
    obtain ⟨f, hf, heq⟩ := h
    obtain ⟨f', hf', hkey⟩ := hflows f.key j ⟨f, hf, rfl⟩
    exact ⟨f', hf', by rw [hkey, heq]⟩
  | reading | filing | admitting | refusing | returned =>
    rw [hr] at h
    exact h

theorem Holds.of_not_held (h : Holds s filed) (hrun : s.run.held = false) : s.received = filed := by
  unfold Holds at h
  cases hr : s.run with
  | filing | delivering =>
    rw [hr] at hrun
    cases hrun
  | reading | admitting | refusing | returned =>
    rw [hr] at h
    exact h

theorem Holds.all (hrun : s.run.held = false) (h : s.received = filed) : Holds s filed := by
  unfold Holds
  cases hr : s.run with
  | filing | delivering =>
    rw [hr] at hrun
    cases hrun
  | reading | admitting | refusing | returned => exact h

end

section

variable {s s' : State} {filed : List (Str × Str)}

theorem Inv.file {peer payload : Str} (h : Inv s filed) (hrun : s.run = .filing peer payload) :
    ∃ filed', Inv (s.file peer payload) filed' := by
  have hreceived : s.received = filed ++ [(peer, payload)] := by
    have := h.holds
    unfold Holds at this
    rw [hrun] at this
    exact this
  unfold State.file
  split
  · -- a known source
    rename_i i hi
    obtain ⟨f, hf, hkey⟩ := h.tabled.entry peer i hi
    exact ⟨filed, h.tabled.congr rfl rfl rfl, h.yields, f, hf, by rw [hkey]; exact hreceived⟩
  · rename_i hnone
    split
    · exact ⟨s.received, h.tabled.congr rfl rfl rfl,
        fun i f hf => hreceived ▸ (h.yields i f hf).concat _, rfl⟩
    · refine ⟨filed, ⟨?_, ?_, ?_⟩, ?_, ?_⟩
      · intro key i hi
        rcases Map.set_eq_some.mp hi with ⟨rfl, rfl⟩ | ⟨-, hi⟩
        · exact ⟨_, getElem?_concat_length .., rfl⟩
        · exact exists_concat (h.tabled.entry key i hi)
      · intro i f hf
        rcases getElem?_concat_cases hf with hf | ⟨rfl, rfl⟩
        · -- an older flow of this source is no longer listed
          have hlisted := h.tabled.listed i f hf
          obtain ⟨hlt, -⟩ := List.getElem?_eq_some_iff.mp hf
          rw [← hlisted]
          show s.table.set peer s.flows.length f.key = some i ↔ _
          by_cases hk : f.key = peer
          · simp [hk, hnone, Nat.ne_of_gt hlt]
          · rw [Map.set_of_ne hk]
        · simp [newUDPFlow, Phase.listed]
      · intro c call hc hpc
        exact exists_concat (h.tabled.returned c call hc hpc)
      · exact forall_concat h.yields (.newUDPFlow ..)
      · exact ⟨_, getElem?_concat_length .., hreceived⟩

theorem closeStep_cases {phase phase' : Phase} {pc pc' : CallPc} (h : closeStep phase pc = some (phase', pc')) :
    (phase = .signalled ∧ phase' = .forgotten ∧ pc' = .running) ∨
      (phase ≠ .signalled ∧ phase'.listed = phase.listed ∧ (pc' = .returned → phase' = .finished) ∧
        (phase = .finished → phase' = .finished)) := by
  cases phase <;> cases pc <;> simp [closeStep] at h <;> obtain ⟨rfl, rfl⟩ := h <;> simp [Phase.listed]

theorem Tabled.call {c : Nat} {call : CloseCall} {f : Flow} {phase : Phase} {pc : CallPc} (h : Tabled s)
    (hf : s.flows[call.flow]? = some f)
    (hstep : closeStep f.phase call.pc = some (phase, pc))
    (hs' : s' = { s with
      flows := s.flows.set call.flow { f with phase }
      calls := s.calls.set c { call with pc }
      table := if f.phase = .signalled then s.table.deleteIf f.key call.flow else s.table }) : Tabled s' := by
  subst hs'
  rcases closeStep_cases hstep with ⟨hsig, rfl, rfl⟩ | ⟨hsig, hlisted, hret, hfin⟩
  · simp only [hsig, ↓reduceIte]
    refine ⟨?_, ?_, ?_⟩
    · intro key i hi
      obtain ⟨hi, -⟩ := Map.deleteIf_eq_some.mp hi
      exact exists_set (h.entry key i hi) hf id
    · intro i g hg
      rw [Map.deleteIf_eq_some]
      rcases getElem?_set_cases hg with ⟨rfl, rfl⟩ | ⟨hne, hg⟩
      · simp [Phase.listed]
      · rw [← h.listed i g hg]
        exact and_iff_left fun heq => hne heq.2.symm
    · intro c' call' hc' hpc'
      rcases getElem?_set_cases hc' with ⟨-, rfl⟩ | ⟨-, hc'⟩
      · cases hpc'
      · obtain ⟨g, hg, hfin⟩ := h.returned c' call' hc' hpc'
        refine exists_set ⟨g, hg, hfin⟩ hf fun hfin' => ?_
        rw [hsig] at hfin'
        cases hfin'
  · simp only [hsig, ↓reduceIte]
    refine ⟨?_, ?_, ?_⟩
    · intro key i hi
      exact exists_set (h.entry key i hi) hf id
    · apply forall_set h.listed
      rw [hlisted]
      exact h.listed call.flow f hf
    · intro c' call' hc' hpc'
      rcases getElem?_set_cases hc' with ⟨-, rfl⟩ | ⟨-, hc'⟩
      · exact ⟨_, getElem?_set_self hf, hret hpc'⟩
      · exact exists_set (h.returned c' call' hc' hpc') hf hfin

theorem Inv.setFlow {i : Nat} {f f' : Flow} (h : Inv s filed) (hi : s.flows[i]? = some f)
    (hf' : f'.Yields filed ∧ f'.key = f.key ∧ f'.phase = f.phase) : Inv (s.setFlow i f') filed where
  tabled := h.tabled.setFlow hi hf'.2.1 hf'.2.2
  yields := forall_set h.yields hf'.1
  holds := h.holds.congr rfl rfl fun _ _ hj => exists_set hj hi fun hk => hf'.2.1.trans hk

theorem Inv.step (h : Inv s filed) (he : Effect s s') : ∃ filed', Inv s' filed' := by
  cases he with
  | none hsame hrun =>
    refine ⟨filed, h.tabled.congr hsame.table hsame.flows hsame.calls, ?_, ?_⟩
    · rw [hsame.flows]
      exact h.yields
    · apply h.holds.congr hrun hsame.received
      rw [hsame.flows]
      exact fun _ _ hj => hj
  | went hsame hrun hrun' =>
    refine ⟨filed, h.tabled.congr hsame.table hsame.flows hsame.calls, ?_, ?_⟩
    · rw [hsame.flows]
      exact h.yields
    · exact .all hrun' (hsame.received.trans (h.holds.of_not_held hrun))
  | started i htable hflows hcalls hreceived hrun =>
    refine ⟨filed, h.tabled.startClose hcalls htable hflows, ?_, ?_⟩
    · rw [hflows]
      exact h.yields
    · rcases hrun with hrun | ⟨hrun, hrun'⟩
      · apply h.holds.congr hrun hreceived
        rw [hflows]
        exact fun _ _ hj => hj
      · exact .all hrun' (hreceived.trans (h.holds.of_not_held hrun))
  | received peer payload hrun hs' =>
    subst hs'
    refine ⟨filed, h.tabled.congr rfl rfl rfl, h.yields, ?_⟩
    show s.received ++ _ = _
    rw [h.holds.of_not_held hrun]
  | filed peer payload hrun hs' =>
    subst hs'
    exact h.file hrun
  | delivered hrun hf hdeliver hs' =>
    rename_i i known queued payload f f'
    subst hs'
    have hreceived : s.received = filed ++ [(f.key, payload)] := by
      have hholds := h.holds
      unfold Holds at hholds
      rw [hrun] at hholds
      obtain ⟨g, hg, heq⟩ := hholds
      rw [hf, Option.some.injEq] at hg
      rw [hg]
      exact heq
    obtain ⟨hyields, hkey, hphase⟩ := (h.yields i f hf).deliver hdeliver
    refine ⟨s.received, (h.tabled.setFlow hf hkey hphase).congr rfl rfl rfl, ?_, ?_⟩
    · rw [hreceived]
      exact forall_set (fun j g hg => (h.yields j g hg).concat _) hyields
    · apply Holds.all _ rfl
      cases known <;> rfl
  | @called c call f phase pc _ hf hstep hs' =>
    refine ⟨filed, h.tabled.call hf hstep hs', ?_, ?_⟩ <;> subst hs'
    · exact forall_set h.yields (h.yields call.flow f hf)
    · exact h.holds.congr rfl rfl fun _ _ hj => exists_set hj hf id
  | read hf hr hs' =>
    subst hs'
    exact ⟨filed, h.setFlow hf ((h.yields _ _ hf).read hr)⟩
  | sent hf hs' =>
    subst hs'
    have hyields := h.yields _ _ hf
    exact ⟨filed, h.setFlow hf ⟨hyields, rfl, rfl⟩⟩

end

end ArangeTun.UdpForward
