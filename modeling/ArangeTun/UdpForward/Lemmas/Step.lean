import ArangeTun.UdpForward.Model

/-! # What a step of the forwarder does to its flows -/

namespace ArangeTun.UdpForward

open Go Option Transition

def RunPc.held : RunPc → Bool
  | .filing _ _ | .delivering _ _ _ => true
  | .reading | .admitting _ | .refusing _ | .returned => false

structure SameFlows (s s' : State) : Prop where
  table : s'.table = s.table
  flows : s'.flows = s.flows
  calls : s'.calls = s.calls
  received : s'.received = s.received

inductive Effect (s s' : State) : Prop
  | none : SameFlows s s' → s'.run = s.run → Effect s s'
  -- `run` goes on, and held no datagram
  | went : SameFlows s s' → s.run.held = false → s'.run.held = false → Effect s s'
  | started (i : Nat) : s'.table = s.table → s'.flows = s.flows → s'.calls = s.calls ++ [⟨i, .entering⟩] →
      s'.received = s.received → (s'.run = s.run ∨ s.run.held = false ∧ s'.run.held = false) → Effect s s'
  | received (peer payload : Str) : s.run.held = false →
      s' = { s with received := s.received ++ [(peer, payload)], run := .filing peer payload } → Effect s s'
  | filed (peer payload : Str) : s.run = .filing peer payload → s' = s.file peer payload → Effect s s'
  | delivered {i : Nat} {known queued : Bool} {payload : Str} {f f' : Flow} :
      s.run = .delivering i known payload → s.flows[i]? = some f → f.deliver s.now payload queued = some f' →
      s' = { s.setFlow i f' with run := if known then .reading else .admitting i } → Effect s s'
  | called {c : Nat} {call : CloseCall} {f : Flow} {phase : Phase} {pc : CallPc} :
      s.calls[c]? = some call → s.flows[call.flow]? = some f → closeStep f.phase call.pc = some (phase, pc) →
      s' = { s with
        flows := s.flows.set call.flow { f with phase }
        calls := s.calls.set c { call with pc }
        table := if f.phase = .signalled then s.table.deleteIf f.key call.flow else s.table } → Effect s s'
  | read {i n : Nat} {f : Flow} {r : Flow × Option Str} :
      s.flows[i]? = some f → f.read s.now n = some r → s' = s.setFlow i r.1 → Effect s s'
  | sent {i : Nat} {f : Flow} :
      s.flows[i]? = some f → s' = s.setFlow i { f with lastSeen := s.now } → Effect s s'

theorem effect_of_step {s s' : State} {a : Action} (h : step s a = some s') : Effect s s' := by
  cases a with
  | tick ns | cancel =>
    cases h
    exact .none ⟨rfl, rfl, rfl, rfl⟩ rfl
  | receive peer data =>
    obtain ⟨⟨hrun, -⟩, rfl⟩ := enabled h
    exact .received peer _ (by rw [hrun]; rfl) rfl
  | readError =>
    obtain ⟨hrun, rfl⟩ := enabled h
    split
    · exact .went ⟨rfl, rfl, rfl, rfl⟩ (by rw [hrun]; rfl) rfl
    · exact .none ⟨rfl, rfl, rfl, rfl⟩ rfl
  | file =>
    simp only [step] at h
    split at h
    · rename_i peer payload hrun
      cases h
      exact .filed peer payload hrun rfl
    · cases h
  | deliver queued =>
    simp only [step] at h
    split at h
    · rename_i i known payload hrun
      obtain ⟨f, hf, h⟩ := bind_eq_some_iff.mp h
      obtain ⟨f', hf', h⟩ := bind_eq_some_iff.mp h
      cases h
      exact .delivered hrun hf hf' rfl
    · cases h
  | admitted ok =>
    simp only [step] at h
    split at h
    · rename_i i hrun
      cases h
      cases ok with
      | true => exact .went ⟨rfl, rfl, rfl, rfl⟩ (by rw [hrun]; rfl) rfl
      | false => exact .started i rfl rfl rfl rfl (.inr ⟨by rw [hrun]; rfl, rfl⟩)
    · cases h
  | refused =>
    simp only [step] at h
    split at h
    · rename_i call hrun
      obtain ⟨-, rfl⟩ := enabled h
      exact .went ⟨rfl, rfl, rfl, rfl⟩ (by rw [hrun]; rfl) rfl
    · cases h
  | collect who =>
    obtain ⟨-, h⟩ := ite_none_right_eq_some.mp h
    cases who with
    | reaper =>
      cases h
      exact .none ⟨rfl, rfl, rfl, rfl⟩ rfl
    | closer =>
      obtain ⟨-, rfl⟩ := enabled h
      exact .none ⟨rfl, rfl, rfl, rfl⟩ rfl
  | sweepClose who i =>
    simp only [step] at h
    split at h
    · obtain ⟨-, rfl⟩ := enabled h
      exact .started i rfl rfl rfl rfl (.inl rfl)
    · cases h
  | sweepNext who =>
    simp only [step] at h
    split at h
    · obtain ⟨-, rfl⟩ := enabled h
      exact .none ⟨rfl, rfl, rfl, rfl⟩ rfl
    · cases h
  | sweepEnd who =>
    simp only [step] at h
    split at h
    · cases who with
      | reaper | closer =>
        cases h
        exact .none ⟨rfl, rfl, rfl, rfl⟩ rfl
    · cases h
  | reapDone =>
    obtain ⟨-, rfl⟩ := enabled h
    exact .none ⟨rfl, rfl, rfl, rfl⟩ rfl
  | close i =>
    obtain ⟨f, -, h⟩ := bind_eq_some_iff.mp h
    cases h
    exact .started i rfl rfl rfl rfl (.inl rfl)
  | call c =>
    simp only [step, bind_eq_bind, bind_eq_some_iff, Option.some.injEq] at h
    obtain ⟨call, hc, f, hf, ⟨phase, pc⟩, hstep, rfl⟩ := h
    exact .called hc hf hstep rfl
  | read i n =>
    obtain ⟨f, hf, h⟩ := bind_eq_some_iff.mp h
    obtain ⟨r, hr, h⟩ := bind_eq_some_iff.mp h
    cases h
    exact .read hf hr rfl
  | send i =>
    obtain ⟨f, hf, h⟩ := bind_eq_some_iff.mp h
    cases h
    exact .sent hf rfl

/-! ## The operations of a flow -/

theorem Flow.deliver_cases {f f' : Flow} {now : Nat} {payload : Str} {queued : Bool}
    (h : f.deliver now payload queued = some f') :
    (queued = false ∧ f' = f) ∨
      (queued = true ∧ ∃ queue, f.queue.trySend payload = some queue ∧ f' = { f with queue, lastSeen := now }) := by
  unfold Flow.deliver at h
  split at h
  · rename_i queue hsend
    split at h
    · rename_i hqueued
      cases h
      exact .inr ⟨hqueued, queue, hsend, rfl⟩
    · rename_i hqueued
      simp only [ite_none_right_eq_some, Option.some.injEq] at h
      exact .inl ⟨Bool.eq_false_of_not_eq_true hqueued, h.2.symm⟩
  · simp only [ite_none_left_eq_some, Option.some.injEq] at h
    exact .inl ⟨Bool.eq_false_of_not_eq_true h.1, h.2.symm⟩

theorem Flow.read_cases {f : Flow} {now n : Nat} {r : Flow × Option Str} (h : f.read now n = some r) :
    r = f.hand now n f.pending ∨
      (∃ payload queue, f.pending = [] ∧ f.queue.tryRecv = some (payload, queue) ∧
        r = ({ f with queue } : Flow).hand now n (frame payload)) ∨
      (f.pending = [] ∧ f.queue.tryRecv = none ∧ r = (f, none)) := by
  unfold Flow.read at h
  split at h
  · cases h
    exact .inl rfl
  · rename_i hpending
    split at h
    · rename_i payload queue hrecv
      cases h
      exact .inr (.inl ⟨payload, queue, not_not.mp hpending, hrecv, rfl⟩)
    · rename_i hrecv
      obtain ⟨-, rfl⟩ := enabled h
      exact .inr (.inr ⟨not_not.mp hpending, hrecv, rfl⟩)

end ArangeTun.UdpForward
