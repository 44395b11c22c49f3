import ArangeTun.Backends.Model
import ArangeTun.Transition.Cursor

/-! # Balancing -/

namespace ArangeTun.Backends

open Go Transition Transition.Cursor List Option BackendGroup

variable {n : Nat}

/-! ## The cursor -/

namespace BackendGroup

variable {g : BackendGroup n} {c : Nat}

theorem succ_natCast (h : c + 1 < 2 ^ 63) : succ (c : Int) = ((c + 1 : Nat) : Int) := by
  unfold succ
  rw [Int.bmod_eq_of_le] <;> push_cast <;> omega

variable [NeZero n]

theorem cursor_natCast (h : g.next = (c : Int)) : g.cursor = some (Fin.ofNat n c) := by
  have hmod : (c : Int).tmod n = ((c % n : Nat) : Int) := by rw [Int.tmod_eq_emod_of_nonneg (by omega)]; rfl
  have hlt := Nat.mod_lt c (NeZero.pos n)
  unfold cursor
  simp only [h, hmod]
  rw [dif_pos ⟨by omega, by omega⟩]
  rfl

def sound (g : BackendGroup n) (j : Nat) : Bool := g.healthy (Fin.ofNat n j)

theorem scan_natCast {m : Nat} (h : g.next = (c : Int)) (hc : c + m + 1 < 2 ^ 63) :
    scan m g = some (Fin.ofNat n (seek g.sound m c), { g with next := (seek g.sound m c + 1 : Nat) }) := by
  induction m generalizing g c with
  | zero =>
    rw [scan, cursor_natCast h, map_some, advance, h, succ_natCast (by omega)]
    rfl
  | succ m ih =>
    rw [scan, cursor_natCast h]
    by_cases hs : g.healthy (Fin.ofNat n c) = true
    · simp only [hs, if_true, advance, h, succ_natCast (c := c) (by omega), seek, sound]
    · have hadv : g.advance.next = ((c + 1 : Nat) : Int) := by rw [advance, h, succ_natCast (by omega)]
      have hrest := ih hadv (by omega)
      simp only [hs, seek, sound]
      exact hrest

theorem pick_natCast (h : g.next = (c : Int)) (hc : c + n + 1 < 2 ^ 63) :
    g.pick = some (g.list (Fin.ofNat n (seek g.sound n c)), { g with next := (seek g.sound n c + 1 : Nat) }) := by
  rw [pick, if_neg (NeZero.ne n), scan_natCast h hc]
  rfl

end BackendGroup

/-! ## Probes -/

section

variable {g : BackendGroup n} {i j : Fin n} {ok : Bool}

theorem probe_frame (g : BackendGroup n) (i : Fin n) (ok : Bool) :
    (g.probe i ok).next = g.next ∧ (g.probe i ok).list = g.list := by
  unfold probe
  split
  · exact ⟨rfl, rfl⟩
  · simp only
    split <;> exact ⟨rfl, rfl⟩

theorem probe_of_ne (h : j ≠ i) :
    (g.probe i ok).healthy j = g.healthy j ∧ (g.probe i ok).fails j = g.fails j := by
  unfold probe
  split
  · simp [h]
  · simp only
    split <;> simp [h]

theorem probe_failed : (g.probe i false).fails i = BackendGroup.succ (g.fails i) ∧
    (g.probe i false).healthy i =
      if BackendGroup.succ (g.fails i) ≥ backendMaxFailed then false else g.healthy i := by
  unfold probe
  simp only [Bool.false_eq_true, if_false]
  split <;> simp

end

def misses (probes : List Bool) : Nat := (probes.takeWhile (!·)).length

theorem three_le_misses (probes : List Bool) : 3 ≤ misses probes ↔ [false, false, false] <+: probes := by
  rcases probes with _ | ⟨_ | _, _ | ⟨_ | _, _ | ⟨_ | _, _⟩⟩⟩ <;> simp [misses]

/-- A backend is down exactly when three probes in a row have failed, and until then they are counted. -/
structure Probed (healthy : Bool) (fails : Int) (probes : List Bool) : Prop where
  down : healthy = false ↔ 3 ≤ misses probes
  count : healthy = true → fails = misses probes

theorem Probed.answered (probes : List Bool) : Probed true 0 (true :: probes) :=
  ⟨by simp [misses], by simp [misses]⟩

theorem Probed.failed {healthy : Bool} {fails : Int} {probes : List Bool} (h : Probed healthy fails probes) :
    Probed (if BackendGroup.succ fails ≥ backendMaxFailed then false else healthy) (BackendGroup.succ fails)
      (false :: probes) := by
  have hmore : misses (false :: probes) = misses probes + 1 := by simp [misses]
  cases healthy with
  | false =>
    have hthree := h.down.mp rfl
    rw [ite_self]
    exact ⟨by simp only [hmore, true_iff]; omega, nofun⟩
  | true =>
    have hfew : ¬ 3 ≤ misses probes := fun hthree => nomatch h.down.mpr hthree
    have hsucc : succ fails = ((misses probes + 1 : Nat) : Int) := by
      rw [h.count rfl, succ_natCast (by omega)]
    rw [hsucc, backendMaxFailed]
    refine ⟨?_, fun _ => by rw [hmore]⟩
    rw [hmore, ite_eq_left_iff]
    simp only [reduceCtorEq, imp_false, not_not]
    omega

def State.Probed (s : State n) : Prop := ∀ i, Backends.Probed (s.group.healthy i) (s.group.fails i) (s.probes i)

theorem probed_probe {s s' : State n} {i : Fin n} {ok : Bool} (h : s.Probed) (hs : step s (.probe i ok) = some s') :
    s'.Probed := by
  cases hs
  intro j
  change Backends.Probed ((s.group.probe i ok).healthy j) ((s.group.probe i ok).fails j)
    (Function.update s.probes i (ok :: s.probes i) j)
  by_cases hj : j = i
  · subst hj
    rw [Function.update_self]
    cases ok with
    | true =>
      simp only [probe, if_true, Function.update_self]
      exact .answered _
    | false =>
      rw [probe_failed.1, probe_failed.2]
      exact (h j).failed
  · rw [(probe_of_ne hj).1, (probe_of_ne hj).2, Function.update_of_ne hj]
    exact h j

/-! ## Runs -/

def State.up (s : State n) : List (Fin n) := (List.finRange n).filter s.group.healthy

section

variable [NeZero n] {s : State n} {c : Nat} {acts : List (Act n)}

theorem step_pick (h : s.group.next = (c : Int)) (hc : c + n + 1 < 2 ^ 63) :
    step s .pick = some
      { s with
        group := { s.group with next := (seek s.group.sound n c + 1 : Nat) }
        picked := s.group.list (Fin.ofNat n (seek s.group.sound n c)) :: s.picked } := by
  rw [step, pick_natCast h hc]
  rfl

theorem exists_run_of_few (h : s.group.next = (c : Int)) (hp : s.Probed) (hc : c + (n + 1) * acts.count .pick < 2 ^ 63) :
    ∃ (s' : State n) (c' : Nat), run step s acts = some s' ∧ s'.group.next = (c' : Int) ∧
      c' ≤ c + (n + 1) * acts.count .pick ∧ s'.group.list = s.group.list ∧ s'.Probed := by
  induction acts generalizing s c with
  | nil => exact ⟨s, c, rfl, h, by simp, rfl, hp⟩
  | cons a acts ih =>
    cases a with
    | pick =>
      rw [count_cons_self, Nat.mul_add] at hc ⊢
      have hle := @seek_le s.group.sound n c
      obtain ⟨s', c', hrun, hnext, hle', hlist, hp'⟩ := @ih { s with
        group := { s.group with next := (seek s.group.sound n c + 1 : Nat) }
        picked := s.group.list (Fin.ofNat n (seek s.group.sound n c)) :: s.picked } _ rfl hp (by omega)
      refine ⟨s', c', ?_, hnext, by omega, hlist, hp'⟩
      rw [run, step_pick h (by omega), bind_some, hrun]
    | probe i ok =>
      rw [count_cons_of_ne (by simp)] at hc ⊢
      obtain ⟨hnext, hlist⟩ := probe_frame s.group i ok
      obtain ⟨s', c', hrun, hnext', hle', hlist', hp'⟩ :=
        @ih _ c (hnext.trans h) (probed_probe hp rfl) hc
      exact ⟨s', c', hrun, hnext', hle', hlist'.trans hlist, hp'⟩

def Steady (s : State n) (acts : List (Act n)) : Prop :=
  ∀ start, start <+: acts → ∀ t, run step s start = some t → t.group.healthy = s.group.healthy

omit [NeZero n] in
theorem Steady.tail {a : Act n} {t : State n} (h : Steady s (a :: acts)) (ht : step s a = some t) : Steady t acts := by
  have hrun (start : List (Act n)) : run step s (a :: start) = run step t start := by rw [run, ht, bind_some]
  have hone : t.group.healthy = s.group.healthy := h [a] (prefix_append [a] acts) t (hrun [])
  intro start hstart u hu
  rw [hone]
  exact h (a :: start) (cons_prefix_cons.mpr ⟨rfl, hstart⟩) u ((hrun start).trans hu)

theorem run_steady (h : s.group.next = (c : Int)) (hc : c + (n + 1) * acts.count .pick < 2 ^ 63) (hs : Steady s acts) :
    ∃ s', run step s acts = some s' ∧ s'.picked =
      ((places s.group.sound n (acts.count .pick) c).map fun j => s.group.list (Fin.ofNat n j)).reverse ++ s.picked := by
  induction acts generalizing s c with
  | nil => exact ⟨s, rfl, rfl⟩
  | cons a acts ih =>
    cases a with
    | pick =>
      rw [count_cons_self] at hc ⊢
      have hle := @seek_le s.group.sound n c
      have hstep := step_pick h (by rw [Nat.mul_add] at hc; omega)
      obtain ⟨s', hrun, hpicked⟩ := ih rfl (by rw [Nat.mul_add] at hc; omega) (hs.tail hstep)
      refine ⟨s', by rw [run, hstep, bind_some, hrun], ?_⟩
      rw [hpicked, places, map_cons, reverse_cons, append_assoc]
      rfl
    | probe i ok =>
      rw [count_cons_of_ne (by simp)] at hc ⊢
      obtain ⟨hnext, hlist⟩ := probe_frame s.group i ok
      have hsame : (s.group.probe i ok).healthy = s.group.healthy :=
        hs [.probe i ok] (prefix_append _ acts) _ rfl
      have hsound : (s.group.probe i ok).sound = s.group.sound := by
        funext j
        simp only [sound, hsame]
      obtain ⟨s', hrun, hpicked⟩ := @ih _ c (hnext.trans h) hc (hs.tail rfl)
      simp only [hsound, hlist] at hpicked
      exact ⟨s', hrun, hpicked⟩

end

/-! ## Balancing -/

def PicksHealthy (s : State n) : Prop :=
  (∃ i, s.group.healthy i = true) →
    ∃ i s', s.group.healthy i = true ∧ step s .pick = some s' ∧ s'.picked = s.group.list i :: s.picked

/-- As many calls of `pick` as there are healthy backends answer with each of them once. -/
def EachOnce (s : State n) (acts : List (Act n)) : Prop :=
  Steady s acts → acts.count .pick = s.up.length →
    ∃ s' answers, run step s acts = some s' ∧ s'.picked = answers ++ s.picked ∧
      answers.Perm (s.up.map s.group.list)

def DownAfterThree (s : State n) : Prop := ∀ i, s.group.healthy i = false ↔ [false, false, false] <+: s.probes i

/-- After any calls, as long as there were not so many that the cursor has wrapped. -/
theorem balanced_before_wrap (hn : 2 ≤ n) (list : Fin n → Str) (acts later : List (Act n))
    (hfew : (n + 1) * ((acts ++ later).count .pick + 1) < 2 ^ 63) :
    ∃ s, run step (opened list) acts = some s ∧ PicksHealthy s ∧ EachOnce s later ∧ DownAfterThree s := by
  have : NeZero n := ⟨by omega⟩
  rw [count_append, Nat.mul_add, Nat.mul_add] at hfew
  have hnew : (opened list).Probed := fun i => ⟨by simp [opened, misses], by simp [opened, misses]⟩
  obtain ⟨s, c, hrun, hnext, hle, -, hp⟩ := @exists_run_of_few n _ (opened list) 0 acts rfl hnew (by omega)
  refine ⟨s, hrun, ?_, ?_, fun i => (hp i).down.trans (three_le_misses _)⟩
  · rintro ⟨i, hi⟩
    exact ⟨_, _, seek_ring hi c, step_pick hnext (by omega), rfl⟩
  · intro hsteady hcount
    obtain ⟨s', hrun', hpicked⟩ := run_steady hnext (by omega) hsteady
    refine ⟨s', _, hrun', hpicked, (reverse_perm _).trans ?_⟩
    have hplaces := (places_perm s.group.healthy c).map s.group.list
    rw [List.map_map] at hplaces
    rw [hcount]
    exact hplaces

def localPorts (i : Fin n) : Str := lit "127.0.0.1:" ++ itoa (8443 + i.val)

/-- The first of two backends fails three times, and the next connection goes to the other one. -/
theorem one_of_two_left :
    (2 ≤ 2 ∧ (2 + 1) * ((List.replicate 3 (.probe 0 false) ++ [.pick] : List (Act 2)).count .pick + 1) < 2 ^ 63) ∧
      ∃ s, run step (opened localPorts) (List.replicate 3 (.probe (0 : Fin 2) false)) = some s ∧
        PicksHealthy s ∧ EachOnce s [.pick] ∧ DownAfterThree s := by
  have hfew : (2 + 1) * ((List.replicate 3 (.probe 0 false) ++ [.pick] : List (Act 2)).count .pick + 1) < 2 ^ 63 := by
    decide
  exact ⟨⟨Nat.le_refl 2, hfew⟩, balanced_before_wrap (Nat.le_refl 2) localPorts _ _ hfew⟩

section

variable [NeZero n] {s : State n} {c : Nat}

theorem step_pick_of_healthy (h : s.group.next = (c : Int)) (hup : ∀ i, s.group.healthy i = true) :
    step s .pick = some
      { s with group := s.group.advance, picked := s.group.list (Fin.ofNat n c) :: s.picked } := by
  have hscan {m : Nat} (hm : m ≠ 0) : s.group.scan m = some (Fin.ofNat n c, s.group.advance) := by
    cases m with
    | zero => exact absurd rfl hm
    | succ m => simp only [scan, cursor_natCast h, hup, if_true]
  rw [step, pick, if_neg (NeZero.ne n), hscan (NeZero.ne n)]
  rfl

theorem run_picks (m : Nat) (h : s.group.next = (c : Int)) (hup : ∀ i, s.group.healthy i = true)
    (hc : c + m < 2 ^ 63) :
    ∃ s', run step s (List.replicate m .pick) = some s' ∧ s'.group.next = ((c + m : Nat) : Int) ∧
      ∀ i, s'.group.healthy i = true := by
  induction m generalizing s c with
  | zero => exact ⟨s, rfl, h, hup⟩
  | succ m ih =>
    have hnext : s.group.advance.next = ((c + 1 : Nat) : Int) := by
      rw [advance, h, succ_natCast (by omega)]
    obtain ⟨s', hrun, hnext', hup'⟩ := @ih { s with
      group := s.group.advance, picked := s.group.list (Fin.ofNat n c) :: s.picked } (c + 1) hnext hup (by omega)
    refine ⟨s', ?_, by rw [hnext', Nat.add_assoc, Nat.add_comm 1 m], hup'⟩
    rw [replicate_succ, run, step_pick_of_healthy h hup, bind_some, hrun]

end

/-- The connection after `2 ^ 63` others, with all of three backends healthy. -/
theorem no_pick_after_wrap :
    ∃ s : State 3, run step (opened localPorts) (List.replicate (2 ^ 63) .pick) = some s ∧
      (∀ i, s.group.healthy i = true) ∧ step s .pick = none := by
  obtain ⟨s, hrun, hnext, hup⟩ := @run_picks 3 _ (opened localPorts) 0 (2 ^ 63 - 1) rfl (fun _ => rfl) (by decide)
  rw [Nat.zero_add] at hnext
  have hsplit : List.replicate (2 ^ 63) (Act.pick (n := 3)) = List.replicate (2 ^ 63 - 1) .pick ++ [.pick] := by
    rw [← replicate_succ', Nat.sub_add_cancel Nat.one_le_two_pow]
  obtain ⟨t, hlast, hgroup⟩ : ∃ t, step s .pick = some t ∧ t.group = s.group.advance :=
    ⟨_, step_pick_of_healthy hnext hup, rfl⟩
  have hwrap : t.group.cursor = none := by
    have hneg : ¬ 0 ≤ (succ ((2 ^ 63 - 1 : Nat) : Int)).tmod 3 := by decide
    rw [hgroup, cursor, advance, hnext]
    exact dif_neg fun h => hneg h.1
  refine ⟨t, ?_, by rw [hgroup]; exact hup, ?_⟩
  · rw [hsplit, run_append, hrun, bind_some, run, hlast, bind_some, run]
  · rw [step, pick, if_neg (by decide), scan, hwrap]
    rfl

end ArangeTun.Backends
