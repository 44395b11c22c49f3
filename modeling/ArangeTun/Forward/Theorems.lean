import ArangeTun.Forward.Lemmas.Account

/-! # What an ended run of the plain TCP server gives back -/

namespace ArangeTun.Forward

open Go Server Transition

variable {size : Nat}

def admits (max : Int) : Nat → Int → Bool
  | 0, _ => true
  | n + 1, active => (acquire max active).2 && admits max n (acquire max active).1

theorem admits_of_le {max active : Int} {n : Nat} (hmax : 0 < max) (h : active + n ≤ max) :
    admits max n active = true := by
  induction n generalizing active with
  | zero => rfl
  | succ n ih =>
    have hroom : active + 1 ≤ max := by omega
    simp only [admits, acquire, if_neg (Int.not_le.mpr hmax), hroom, decide_true, Bool.true_and]
    exact ih (by omega)

structure GivenBack (maxConnections : Nat) (s : State size) : Prop where
  closed : ∀ run ∈ s.runs, run.Ended → run.openConns = 0
  active_eq : s.active = ((s.runs.filter (¬·.Ended)).map Run.slots).sum
  admits_again : (∀ run ∈ s.runs, run.Ended) →
    s.active = 0 ∧ admits (maxConns maxConnections) maxConnections s.active = true

theorem sum_filter_of_ended {l : List (Run size)} (h : ∀ run ∈ l, run.Ended → run.slots = 0) :
    ((l.filter (¬·.Ended)).map Run.slots).sum = (l.map Run.slots).sum := by
  induction l with
  | nil => rfl
  | cons run l ih =>
    have ih := ih fun x hx => h x (List.mem_cons_of_mem _ hx)
    by_cases hended : run.Ended
    · simpa [hended, h run List.mem_cons_self hended] using ih
    · simpa [hended] using ih

/-- The accept loops of all runs. With `MaxConnections` and them below `2 ^ 31`, `active` stays within its `int32`. -/
def State.listeners (s : State size) : Nat := (s.runs.map (·.acceptors.length)).sum

theorem givenBack_of_drains {maxConnections : Nat} {s : State size} (hpos : 0 < maxConnections)
    (hlt : maxConnections + s.listeners < 2 ^ 31) (h : Reach (step (maxConns maxConnections)) Drains initial s) :
    GivenBack maxConnections s := by
  have hlt : maxConnections < 2 ^ 31 := by omega
  have hmax := maxConns_pos hpos hlt
  have hzero : ∀ run ∈ s.runs, run.Ended → run.slots = 0 := by
    intro run hrun hended
    obtain ⟨r, hr⟩ := List.mem_iff_getElem?.mp hrun
    exact slots_eq_zero hended (attended_of_reach hmax h r run hr)
  have hactive : s.active = ((s.runs.filter (¬·.Ended)).map Run.slots).sum := by
    rw [active_eq_slots hmax h, sum_filter_of_ended hzero]
    rfl
  refine ⟨?_, hactive, ?_⟩
  · intro run hrun hended
    rw [(slots_of_ended hended).2, hzero run hrun hended]
  · intro hall
    have hnone : s.runs.filter (¬·.Ended) = [] := List.filter_eq_nil_iff.mpr (by simpa using hall)
    rw [hnone] at hactive
    refine ⟨hactive, admits_of_le hmax ?_⟩
    rw [hactive, maxConns_of_lt hlt]
    simp

def quietRestart : List Action :=
  [.start 1 1, .acceptor 0 0 .accept, .acceptor 0 0 .enqueue, .loop 0 0 .take, .loop 0 0 .check,
    .loop 0 0 (.pair true), .cancel 0, .relayEnds 0 0, .relayReleases 0 0, .acceptor 0 0 .leave, .loop 0 0 .done]

theorem givenBack_quietRestart : ∃ s : State 1, Reach (step (maxConns 1)) Drains initial s ∧
    s.runs.map (decide ·.Ended) = [true] ∧ GivenBack 1 s := by
  have hrun : ∃ s : State 1, Reach (step (maxConns 1)) Drains initial s ∧
      s.runs.map (decide ·.Ended) = [true] ∧ s.listeners = 1 :=
    exists_reach quietRestart (by decide +kernel)
  obtain ⟨s, hr, hended, hone⟩ := hrun
  exact ⟨s, hr, hended, givenBack_of_drains (by decide) (by rw [hone]; decide) hr⟩

def busyRestart : List Action :=
  [.start 1 1, .acceptor 0 0 .accept, .acceptor 0 0 .enqueue, .loop 0 0 .take, .loop 0 0 .check, .cancel 0,
    .acceptor 0 0 .leave, .loop 0 0 .done]

/-- Every goroutine of the run has returned, its connection is open, and the limit of one admits no other. -/
theorem slot_lost_on_restart : ∃ s : State 1, Reach (step (maxConns 1)) Any initial s ∧
    s.runs.map (decide ·.Ended) = [true] ∧ s.runs.map Run.openConns = [1] ∧ s.active = 1 ∧
    admits (maxConns 1) 1 s.active = false :=
  exists_reach busyRestart (by decide +kernel)

/-! ## The limit over all runs -/

def Run.refusing (run : Run size) : Nat := run.acceptors.countP (· = .refusing)

def State.refusing (s : State size) : Nat := (s.runs.map Run.refusing).sum

theorem limit_put {max : Int} {s : State size} {r : Nat} {run run' : Run size} {f : Front size}
    (hinv : s.active ≤ max + s.refusing) (hr : s.runs[r]? = some run)
    (hle : f.active ≤ max ∨ f.active + run.refusing ≤ s.active + run'.refusing) :
    (s.put r f run').active ≤ max + (s.put r f run').refusing := by
  have hsum : (s.put r f run').refusing + run.refusing = s.refusing + run'.refusing := sum_map_set hr
  show f.active ≤ _
  omega

theorem limit_step {max : Int} {s s' : State size} {a : Action} (hmax : 0 < max) (hinv : s.active ≤ max + s.refusing)
    (h : Step max s a s') : s'.active ≤ max + s'.refusing := by
  cases h with
  | start => simpa [State.refusing, newRun, Run.refusing, List.countP_replicate] using hinv
  | tick => exact hinv
  | cancel hr | relayEnds hr => exact limit_put hinv hr (.inr le_rfl)
  | relayReleases hr => exact limit_put hinv hr (.inr (by simp [Run.refusing]))
  | loop hr _ hloop => exact limit_put hinv hr (.inr (by cases hloop <;> simp [State.front, Run.refusing]))
  | acceptor hr hj hstep =>
    rename_i pc'
    refine limit_put hinv hr ?_
    have hset := countP_set (p := (· = .refusing)) (b := pc') hj
    cases acceptLocalConn_sound hmax hstep with
    | granted hroom => exact .inl hroom
    | refused | gaveBack | queued | full | dropped | left =>
      simp [State.front, Run.refusing] at hset ⊢
      omega

/-- Over any number of restarts, the connections that hold a slot are at most `MaxConnections`, but for those that are
being refused. -/
theorem limit_kept {maxConnections : Nat} {s : State size} (hpos : 0 < maxConnections)
    (hlt : maxConnections + s.listeners < 2 ^ 31) (h : Reach (step (maxConns maxConnections)) Any initial s) :
    s.slots ≤ maxConnections + s.refusing := by
  have hmax : 0 < (maxConnections : Int) := Int.natCast_pos.mpr hpos
  rw [maxConns_of_lt (by omega)] at h
  have hle : s.active ≤ maxConnections + s.refusing :=
    h.invariant (I := fun s : State size => s.active ≤ maxConnections + s.refusing) (by simp [initial, State.refusing])
      fun _ _ _ hinv _ hs => limit_step hmax hinv (step_sound hmax hs)
  rw [active_eq_slots hmax h] at hle
  omega

theorem limit_kept_busyRestart : ∃ s : State 1, Reach (step (maxConns 1)) Any initial s ∧
    s.slots = 1 ∧ s.slots ≤ 1 + s.refusing := by
  obtain ⟨s, hr, hslots, hone⟩ : ∃ s : State 1, Reach (step (maxConns 1)) Any initial s ∧
      s.slots = 1 ∧ s.listeners = 1 :=
    exists_reach busyRestart (by decide +kernel)
  exact ⟨s, hr, hslots, limit_kept (by decide) (by rw [hone]; decide) hr⟩

end ArangeTun.Forward
