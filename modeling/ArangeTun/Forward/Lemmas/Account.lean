import ArangeTun.Forward.Lemmas.Step

/-! # Slots over the runs of the plain TCP server -/

namespace ArangeTun.Forward

open Go Server Transition LoopPc

variable {size : Nat} {max : Int}

/-! ## Who holds what -/

def LoopPc.slot : LoopPc → Bool
  | .holding _ | .pairing _ | .releasing | .returned (some _) => true
  | .waiting | .returned none => false

def LoopPc.isOpen : LoopPc → Bool
  | .holding _ | .pairing _ | .returned (some _) => true
  | .waiting | .releasing | .returned none => false

def LoopPc.lost : LoopPc → Bool
  | .returned (some _) => true
  | _ => false

def RelayPc.slot : RelayPc → Bool
  | .relaying | .ended => true
  | .returned => false

/-- The parties of the run that have added one to `active` and have not taken it back. -/
def Run.slots (run : Run size) : Nat :=
  run.acceptors.countP AcceptPc.slot + run.localChannel.buf.length + run.loops.countP LoopPc.slot +
    run.relays.countP RelayPc.slot

def Run.openConns (run : Run size) : Nat :=
  run.acceptors.countP AcceptPc.isOpen + run.localChannel.buf.length + run.loops.countP LoopPc.isOpen +
    run.relays.countP (· = .relaying)

def State.slots (s : State size) : Nat := (s.runs.map Run.slots).sum

def Run.live (run : Run size) : Nat := run.loops.countP LoopPc.live

theorem Loop.slots {now : Nat} {f f' : Front size} {relays relays' : List RelayPc} {pc pc' : LoopPc}
    {e : LoopEvent} (h : Loop now f relays pc e f' relays' pc') :
    f'.active + f.localChannel.buf.length + pc.slot.toNat + relays.countP RelayPc.slot =
      f.active + f'.localChannel.buf.length + pc'.slot.toNat + relays'.countP RelayPc.slot := by
  cases h with
  | take hr =>
    simp [slot, Chan.tryRecv_eq_some hr]
    omega
  | released =>
    simp [slot]
    omega
  | paired =>
    simp [slot, RelayPc.slot]
    omega
  | done | lost | expired | fresh | unpaired => simp [slot]

theorem active_put {s : State size} {r : Nat} {run run' : Run size} {f : Front size}
    (hinv : s.active = s.slots) (hr : s.runs[r]? = some run)
    (hbal : f.active + run.slots = s.active + ({ run' with localChannel := f.localChannel } : Run size).slots) :
    (s.put r f run').active = (s.put r f run').slots := by
  have hsum := sum_map_set (f := Run.slots) (b := { run' with localChannel := f.localChannel }) hr
  simp only [State.slots, State.put] at hinv ⊢
  omega

theorem newRun_slots (listeners numCPU : Nat) : (newRun listeners numCPU : Run size).slots = 0 := by
  simp [newRun, Run.slots, List.countP_replicate, AcceptPc.slot, slot]

theorem active_step {s s' : State size} {a : Action} (hmax : 0 < max) (hinv : s.active = s.slots)
    (h : Step max s a s') : s'.active = s'.slots := by
  cases h with
  | start => simpa [State.slots, newRun_slots] using hinv
  | cancel hr => exact active_put hinv hr rfl
  | acceptor hr hj hstep =>
    rename_i r j e run pc f pc'
    have hacc := (acceptLocalConn_sound hmax hstep).slots
    have hset := countP_set (p := AcceptPc.slot) (b := pc') hj
    refine active_put hinv hr ?_
    simp only [Run.slots, State.front] at hacc ⊢
    omega
  | loop hr hi hstep =>
    rename_i r i e run pc f relays pc'
    have hloop := hstep.slots
    have hset := countP_set (p := slot) (b := pc') hi
    refine active_put hinv hr ?_
    simp only [Run.slots, State.front] at hloop ⊢
    omega
  | relayEnds hr hq =>
    have hset := countP_set (p := RelayPc.slot) (b := .ended) hq
    refine active_put hinv hr ?_
    simp only [Run.slots, State.front, RelayPc.slot] at hset ⊢
    omega
  | relayReleases hr hq =>
    have hset := countP_set (p := RelayPc.slot) (b := .returned) hq
    refine active_put hinv hr ?_
    simp only [Run.slots, RelayPc.slot, Bool.toNat_true, Bool.toNat_false] at hset ⊢
    omega
  | tick => exact hinv

theorem active_eq_slots {C : State size → Action → Prop} {s : State size} (hmax : 0 < max)
    (h : Reach (step max) C initial s) : s.active = s.slots :=
  h.invariant (I := fun s => s.active = s.slots) rfl fun _ _ _ hinv _ hs => active_step hmax hinv (step_sound hmax hs)

/-! ## Runs that leave nothing behind -/

/-- A `handleLoop` does not return with a connection in hand, the last one to return leaves an empty queue, and
nothing is queued after it. -/
def Drains (s : State size) : Action → Prop
  | .loop r i .done => ∀ run ∈ s.runs[r]?, run.loops[i]? = some .waiting ∧
      (run.localChannel.buf = [] ∨ 2 ≤ run.live)
  | .acceptor r _ .enqueue => ∀ run ∈ s.runs[r]?, 0 < run.live
  | _ => True

instance (s : State size) : (a : Action) → Decidable (Drains s a)
  | .loop r i .done => inferInstanceAs (Decidable (∀ run ∈ s.runs[r]?, run.loops[i]? = some .waiting ∧
      (run.localChannel.buf = [] ∨ 2 ≤ run.live)))
  | .acceptor r _ .enqueue => inferInstanceAs (Decidable (∀ run ∈ s.runs[r]?, 0 < run.live))
  | .loop _ _ .take | .loop _ _ .check | .loop _ _ .release | .loop _ _ (.pair _) | .acceptor _ _ .accept
  | .acceptor _ _ .giveBack | .acceptor _ _ .drop | .acceptor _ _ .leave | .start _ _ | .cancel _
  | .relayEnds _ _ | .relayReleases _ _ | .tick _ => isTrue trivial

structure Attended (run : Run size) : Prop where
  none_lost : run.loops.countP LoopPc.lost = 0
  drained : run.live = 0 → run.localChannel.buf = []

theorem attended_newRun (listeners numCPU : Nat) : Attended (newRun listeners numCPU : Run size) where
  none_lost := by simp [newRun, List.countP_replicate, LoopPc.lost]
  drained _ := rfl

theorem attended_loop {s : State size} {r i : Nat} {run : Run size} {pc pc' : LoopPc} {e : LoopEvent}
    {f : Front size} {relays : List RelayPc} (hrun : Attended run) (hr : s.runs[r]? = some run)
    (hi : run.loops[i]? = some pc) (hc : Drains s (.loop r i e))
    (h : Loop s.now (s.front run) run.relays pc e f relays pc') :
    Attended { run with localChannel := f.localChannel, relays, loops := run.loops.set i pc' } := by
  obtain ⟨hlost, hdrained⟩ := hrun
  have hset := countP_set (p := lost) (b := pc') hi
  have hlive := countP_set (p := live) (b := pc') hi
  have hpos (hpc : pc.live = true) : 0 < run.live := countP_pos_of_getElem? hi hpc
  simp only [Run.live] at hdrained hpos
  cases h with
  | done =>
    simp only [lost, live, Bool.toNat_true, Bool.toNat_false] at hset hlive
    refine ⟨by simp only; omega, fun hzero => ?_⟩
    rcases (hc run hr).2 with hempty | htwo
    · exact hempty
    · simp only [Run.live] at hzero htwo
      omega
  | lost =>
    have := (hc run hr).1
    rw [hi] at this
    cases this
  | take | expired | fresh | released | paired | unpaired =>
    -- the loop stays live
    have := hpos rfl
    simp only [lost, live] at hset hlive
    refine ⟨by simp only; omega, fun hzero => ?_⟩
    simp only [Run.live] at hzero
    omega

theorem attended_step {s s' : State size} {a : Action} (hmax : 0 < max)
    (hinv : ∀ (r : Nat) (run : Run size), s.runs[r]? = some run → Attended run) (hc : Drains s a)
    (h : Step max s a s') : ∀ (r : Nat) (run : Run size), s'.runs[r]? = some run → Attended run := by
  cases h with
  | start => exact forall_concat hinv (attended_newRun _ _)
  | cancel hr | relayEnds hr | relayReleases hr =>
    obtain ⟨hlost, hdrained⟩ := hinv _ _ hr
    exact forall_set hinv ⟨hlost, hdrained⟩
  | acceptor hr hj hstep =>
    rename_i r j e run pc f pc'
    obtain ⟨hlost, hdrained⟩ := hinv _ _ hr
    refine forall_set hinv ⟨hlost, fun hzero => ?_⟩
    by_cases he : e = .enqueue
    · subst he
      have hpos : 0 < run.live := hc run hr
      simp only [Run.live] at hpos hzero
      omega
    · rw [(acceptLocalConn_sound hmax hstep).localChannel he]
      exact hdrained hzero
  | loop hr hi hstep => exact forall_set hinv (attended_loop (hinv _ _ hr) hr hi hc hstep)
  | tick => exact hinv

theorem attended_of_reach {s : State size} (hmax : 0 < max) (h : Reach (step max) Drains initial s) :
    ∀ (r : Nat) (run : Run size), s.runs[r]? = some run → Attended run :=
  h.invariant (I := fun s => ∀ (r : Nat) (run : Run size), s.runs[r]? = some run → Attended run)
    (by simp [initial]) fun _ _ _ hinv hc hs => attended_step hmax hinv hc (step_sound hmax hs)

theorem slots_of_ended {run : Run size} (h : run.Ended) :
    run.slots = run.localChannel.buf.length + run.loops.countP LoopPc.lost ∧ run.openConns = run.slots := by
  obtain ⟨-, hacc, hloops, hrelays⟩ := h
  have hloop (p : LoopPc → Bool) (hp : ∀ held, p (.returned held) = held.isSome) :
      run.loops.countP p = run.loops.countP lost := by
    refine List.countP_congr fun pc hpc => ?_
    cases pc with
    | returned held => cases held <;> simp [hp, lost]
    | waiting | holding | pairing | releasing => cases hloops _ hpc
  have hslot := hloop slot (by rintro (_ | _) <;> rfl)
  have hopen := hloop isOpen (by rintro (_ | _) <;> rfl)
  have haccSlot := countP_eq_zero_of_forall (p := AcceptPc.slot) hacc (by rintro _ rfl; rfl)
  have haccOpen := countP_eq_zero_of_forall (p := AcceptPc.isOpen) hacc (by rintro _ rfl; rfl)
  have hrelSlot := countP_eq_zero_of_forall (p := RelayPc.slot) hrelays (by rintro _ rfl; rfl)
  have hrelOpen := countP_eq_zero_of_forall (p := (· = .relaying)) hrelays (by rintro _ rfl; rfl)
  simp only [Run.slots, Run.openConns]
  omega

theorem slots_eq_zero {run : Run size} (hended : run.Ended) (h : Attended run) : run.slots = 0 := by
  obtain ⟨hlost, hdrained⟩ := h
  have hlive : run.live = 0 := countP_eq_zero_of_forall hended.2.2.1 fun _ hpc => hpc
  rw [(slots_of_ended hended).1, hlost, hdrained hlive]
  rfl

end ArangeTun.Forward
