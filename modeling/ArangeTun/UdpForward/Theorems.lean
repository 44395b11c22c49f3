import ArangeTun.UdpForward.Lemmas.Flows

/-! # What holds of the flow table in every interleaving -/

namespace ArangeTun.UdpForward

open Go Transition

structure FlowTable (s : State) : Prop where
  entry : ∀ (key : Str) (i : Nat), s.table key = some i → ∃ f : Flow, s.flows[i]? = some f ∧ f.key = key
  one_flow : ∀ (i j : Nat) (f g : Flow), s.flows[i]? = some f → s.flows[j]? = some g → f.key = g.key →
    f.phase.listed = true → g.phase.listed = true → i = j
  closed_gone : ∀ call ∈ s.calls, call.pc = .returned → ∀ key : Str, s.table key ≠ some call.flow
  unclosed_entry : ∀ (i : Nat) (f : Flow), s.flows[i]? = some f → f.phase.listed = true → s.table f.key = some i
  close_keeps : ∀ (c : Nat) (call : CloseCall) (s' : State), s.calls[c]? = some call → step s (.call c) = some s' →
    ∀ (key : Str) (i : Nat), s.table key = some i → i ≠ call.flow → s'.table key = some i
  yields : ∀ (i : Nat) (f : Flow), s.flows[i]? = some f → ∃ ds : List Str,
    ds.Sublist (receivedFrom f.key s.received) ∧ f.output ++ f.pending = ds.flatMap frame

theorem inv_initial : Inv initial [] where
  tabled := by
    refine ⟨?_, ?_, ?_⟩ <;> intro _ _ h
    · cases h
    · simp [initial] at h
    · simp [initial] at h
  yields _ _ h := by simp [initial] at h
  holds := rfl

theorem inv_of_reach {s : State} (h : Reach step Any initial s) : ∃ filed, Inv s filed := by
  apply h.invariant (I := fun s => ∃ filed, Inv s filed)
  · exact ⟨[], inv_initial⟩
  · rintro s a s' ⟨filed, hs⟩ - hstep
    exact hs.step (effect_of_step hstep)

theorem Holds.filed_sublist {s : State} {filed : List (Str × Str)} (h : Holds s filed) :
    filed.Sublist s.received := by
  unfold Holds at h
  cases hr : s.run with
  | filing =>
    rw [hr] at h
    exact h ▸ List.sublist_append_left ..
  | delivering =>
    rw [hr] at h
    obtain ⟨f, -, h⟩ := h
    exact h ▸ List.sublist_append_left ..
  | reading | admitting | refusing | returned =>
    rw [hr] at h
    exact h ▸ List.Sublist.refl _

theorem deleteIf_of_call {s s' : State} {c : Nat} {call : CloseCall} (hc : s.calls[c]? = some call)
    (h : step s (.call c) = some s') :
    ∃ f : Flow, s'.table = s.table ∨ s'.table = s.table.deleteIf f.key call.flow := by
  simp only [step, hc, Option.bind_eq_bind, Option.bind_some, Option.bind_eq_some_iff, Option.some.injEq] at h
  obtain ⟨f, -, -, -, rfl⟩ := h
  refine ⟨f, ?_⟩
  by_cases hsig : f.phase = .signalled
  · exact .inr (if_pos hsig)
  · exact .inl (if_neg hsig)

/-- Every interleaving of `run`, the answers of `admit`, the reaper, the end of the forwarder, `Read` and any number of
`Close`s. -/
theorem flow_table {s : State} (h : Reach step Any initial s) : FlowTable s := by
  obtain ⟨filed, hinv⟩ := inv_of_reach h
  have hentry (i : Nat) (f : Flow) (hf : s.flows[i]? = some f) (hl : f.phase.listed = true) :
      s.table f.key = some i := (hinv.tabled.listed i f hf).mpr hl
  refine ⟨hinv.tabled.entry, ?_, ?_, hentry, ?_, ?_⟩
  · intro i j f g hf hg hkey hfl hgl
    have hi := hentry i f hf hfl
    rw [hkey, hentry j g hg hgl, Option.some.injEq] at hi
    exact hi.symm
  · intro call hcall hpc key hkey
    obtain ⟨c, hc⟩ := List.mem_iff_getElem?.mp hcall
    obtain ⟨f, hf, hfin⟩ := hinv.tabled.returned c call hc hpc
    obtain ⟨g, hg, rfl⟩ := hinv.tabled.entry key call.flow hkey
    rw [hf, Option.some.injEq] at hg
    subst hg
    have := (hinv.tabled.listed call.flow f hf).mp hkey
    rw [hfin] at this
    cases this
  · intro c call s' hc hstep key i hi hne
    obtain ⟨f, htable | htable⟩ := deleteIf_of_call hc hstep
    · rw [htable]
      exact hi
    · rw [htable, Map.deleteIf_eq_some]
      exact ⟨hi, fun heq => hne heq.2⟩
  · intro i f hf
    obtain ⟨ds, hds, hsub⟩ := hinv.yields i f hf
    refine ⟨ds, ?_, hds⟩
    calc ds.Sublist (ds ++ f.queue.buf) := List.sublist_append_left ..
      _ |>.Sublist (receivedFrom f.key filed) := hsub
      _ |>.Sublist (receivedFrom f.key s.received) := (hinv.holds.filed_sublist.filter _).map _

/-- A source that comes back while the flow that the reaper took is still being closed, by the reaper and by its relay.
-/
def comeback : List Action :=
  [.receive (lit "a") (lit "one"), .file, .deliver true, .admitted true, .tick (udpIdleTimeout + 1), .collect .reaper,
    .sweepClose .reaper 0, .call 0, .call 0, .close 0, .call 0, .receive (lit "a") (lit "two"), .file, .call 0,
    .deliver true, .admitted true, .read 0 1500, .call 1, .sweepNext .reaper]

theorem flow_table_comeback : ∃ s, Reach step Any initial s ∧
    (s.table (lit "a") = some 1 ∧ s.flows.map Flow.output = [frame (lit "one"), []] ∧
      s.calls = [⟨0, .returned⟩, ⟨0, .returned⟩]) ∧ FlowTable s := by
  have hrun : ∃ s, Reach step Any initial s ∧
      (s.table (lit "a") = some 1 ∧ s.flows.map Flow.output = [frame (lit "one"), []] ∧
        s.calls = [⟨0, .returned⟩, ⟨0, .returned⟩]) :=
    exists_reach comeback (by decide +kernel)
  obtain ⟨s, hreach, hs⟩ := hrun
  exact ⟨s, hreach, hs, flow_table hreach⟩

end ArangeTun.UdpForward
