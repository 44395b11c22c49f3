import ArangeTun.Client.Pool

/-!
# The pool of the ws and udp clients

`poolMaintainer` of internal/client/transport/ws.go and udp.go: the loop of tcp.go without `poolCanGrow`.
-/

namespace ArangeTun.Client

open Transition

/-- The loop waits for a ticker, or for room in `controlFlow` after it made the pool smaller. -/
inductive LoopPc
  | running
  | pushing
  | returned
  deriving DecidableEq

structure PoolLoop where
  pc : LoopPc
  newPoolSize : Int
  poolConnectionsSum : Int32
  deriving DecidableEq

inductive LoopAction
  | tickPool (poolConnections : Int32)
  | tickLoad (loadConnections : Int32)
  | pushed
  | done

def PoolLoop.initial (cfg : PoolConfig) : PoolLoop := ⟨.running, cfg.connPoolSize, 0⟩

def PoolLoop.tickLoad (cfg : PoolConfig) (s : PoolLoop) (load : Int32) : PoolLoop :=
  match adjust cfg s.newPoolSize load s.poolConnectionsSum true false with
  | .grow => ⟨.running, (s.newPoolSize + 1).bmod (2 ^ 64), 0⟩
  | .shrink => ⟨.pushing, (s.newPoolSize - 1).bmod (2 ^ 64), 0⟩
  | .keep => { s with poolConnectionsSum := 0 }

def loopStep (cfg : PoolConfig) (s : PoolLoop) : LoopAction → Option PoolLoop
  | .tickPool n =>
    if s.pc = .running then some { s with poolConnectionsSum := s.poolConnectionsSum + n } else none
  | .tickLoad load => if s.pc = .running then some (s.tickLoad cfg load) else none
  | .pushed => if s.pc = .pushing then some { s with pc := .running } else none
  | .done => if s.pc = .running then some { s with pc := .returned } else none

def wsPoolMaintainer (cfg : PoolConfig) : PoolLoop → LoopAction → Option PoolLoop := loopStep cfg

def udpPoolMaintainer (cfg : PoolConfig) : PoolLoop → LoopAction → Option PoolLoop := loopStep cfg

/-! ## What the readings ask for -/

/-- One more for a load tick at which the loop wants to grow, one less where it wants to shrink. -/
def want (cfg : PoolConfig) (load sum : Int32) : Int :=
  let f := factors cfg.aggressivePool
  if grows f (tenth load) (tenth sum) then 1 else if shrinks f (tenth load) (tenth sum) then -1 else 0

/-- The sum of the pool readings since the last load tick, and what each load tick wants. -/
structure Readings where
  sum : Int32
  wants : List Int

def Readings.add (cfg : PoolConfig) (r : Readings) : LoopAction → Readings
  | .tickPool n => { r with sum := r.sum + n }
  | .tickLoad load => ⟨0, r.wants ++ [want cfg load r.sum]⟩
  | .pushed | .done => r

def readings (cfg : PoolConfig) (as : List LoopAction) : Readings := as.foldl (Readings.add cfg) ⟨0, []⟩

/-- In every stretch of load ticks, those that want to grow outnumber those that want to shrink by three times the
configured size at most (and by no more than an `int` has room for). -/
def Moderate (cfg : PoolConfig) (wants : List Int) : Prop :=
  ∀ stretch, stretch <:+: wants → stretch.sum ≤ 3 * cfg.connPoolSize ∧ cfg.connPoolSize + stretch.sum < 2 ^ 63

/-! ## A walk that is held at zero -/

def reflected (wants : List Int) : Int := wants.foldl (fun x w => max 0 (x + w)) 0

theorem reflected_concat (wants : List Int) (w : Int) : reflected (wants ++ [w]) = max 0 (reflected wants + w) := by
  simp [reflected]

theorem reflected_nonneg (wants : List Int) : 0 ≤ reflected wants := by
  induction wants using List.reverseRecOn with
  | nil => exact le_rfl
  | append_singleton wants w _ =>
    rw [reflected_concat]
    exact le_max_left _ _

theorem sum_le_reflected {wants stretch : List Int} (h : stretch <:+ wants) : stretch.sum ≤ reflected wants := by
  induction wants using List.reverseRecOn generalizing stretch with
  | nil =>
    rw [List.suffix_nil.mp h]
    exact le_rfl
  | append_singleton wants w ih =>
    rw [reflected_concat]
    rcases List.suffix_concat_iff.mp h with rfl | ⟨stretch, rfl, hstretch⟩
    · exact le_max_left _ _
    · have hle := ih hstretch
      rw [List.sum_append, List.sum_singleton]
      omega

/-- The walk stands at the sum of what came after it last was at zero. -/
theorem exists_sum_eq_reflected (wants : List Int) : ∃ stretch, stretch <:+ wants ∧ stretch.sum = reflected wants := by
  induction wants using List.reverseRecOn with
  | nil => exact ⟨[], List.suffix_rfl, rfl⟩
  | append_singleton wants w ih =>
    obtain ⟨stretch, hstretch, hsum⟩ := ih
    rw [reflected_concat]
    rcases le_total 0 (reflected wants + w) with hpos | hneg
    · refine ⟨stretch ++ [w], List.suffix_concat_iff.mpr (.inr ⟨stretch, rfl, hstretch⟩), ?_⟩
      rw [List.sum_append, List.sum_singleton, hsum, max_eq_right hpos]
    · exact ⟨[], List.nil_suffix, (max_eq_left hneg).symm⟩

section

variable {cfg : PoolConfig} {s s' : PoolLoop} {a : LoopAction}

def Room (cfg : PoolConfig) (x : Int) : Prop := x ≤ 3 * cfg.connPoolSize ∧ cfg.connPoolSize + x < 2 ^ 63

theorem moderate_nil (hint : cfg.connPoolSize < 2 ^ 63) : Moderate cfg [] := by
  intro stretch h
  have hpos := cfg.nonneg
  rw [List.infix_nil.mp h, List.sum_nil]
  omega

theorem moderate_concat {wants : List Int} {w : Int} :
    Moderate cfg (wants ++ [w]) ↔ Moderate cfg wants ∧ Room cfg (reflected (wants ++ [w])) := by
  refine ⟨fun h => ⟨fun stretch hs => h stretch (List.infix_concat_iff.mpr (.inr hs)), ?_⟩, ?_⟩
  · obtain ⟨stretch, hstretch, hsum⟩ := exists_sum_eq_reflected (wants ++ [w])
    exact hsum ▸ h stretch hstretch.isInfix
  · rintro ⟨h, hroom⟩ stretch hs
    rcases List.infix_concat_iff.mp hs with hs | hs
    · have hle := sum_le_reflected hs
      unfold Room at hroom
      omega
    · exact h stretch hs

/-! ## The loop against its readings -/

def InBounds (cfg : PoolConfig) (s : PoolLoop) : Prop :=
  cfg.connPoolSize ≤ s.newPoolSize ∧ s.newPoolSize ≤ 4 * cfg.connPoolSize

/-- The state after readings within the bounds. -/
structure Follows (cfg : PoolConfig) (r : Readings) (s : PoolLoop) : Prop where
  sum : s.poolConnectionsSum = r.sum
  size : s.newPoolSize = cfg.connPoolSize + reflected r.wants

theorem tickLoad_size (load : Int32) {x : Int} (hx : 0 ≤ x) (hsize : s.newPoolSize = cfg.connPoolSize + x) :
    (s.tickLoad cfg load).newPoolSize =
      if 0 < want cfg load s.poolConnectionsSum then (s.newPoolSize + 1).bmod (2 ^ 64)
      else if want cfg load s.poolConnectionsSum < 0 ∧ 0 < x then (s.newPoolSize - 1).bmod (2 ^ 64)
      else s.newPoolSize := by
  have hlt : cfg.connPoolSize < s.newPoolSize ↔ 0 < x := by omega
  simp only [PoolLoop.tickLoad, adjust, want, and_true, Bool.false_eq_true, or_false, hlt]
  by_cases hgrow : grows (factors cfg.aggressivePool) (tenth load) (tenth s.poolConnectionsSum) = true
  · simp [hgrow]
  · by_cases hshrink : shrinks (factors cfg.aggressivePool) (tenth load) (tenth s.poolConnectionsSum) = true
    · by_cases hpos : 0 < x <;> simp [hgrow, hshrink, hpos]
    · simp [hgrow, hshrink]

theorem want_cases (cfg : PoolConfig) (load sum : Int32) :
    want cfg load sum = 1 ∨ want cfg load sum = -1 ∨ want cfg load sum = 0 := by
  simp only [want]
  split
  · exact .inl rfl
  · split
    · exact .inr (.inl rfl)
    · exact .inr (.inr rfl)

theorem bmod_succ {n : Int} (hn : 0 ≤ n) (hlt : n < 2 ^ 63) :
    (n + 1).bmod (2 ^ 64) = if n + 1 < 2 ^ 63 then n + 1 else n + 1 - 2 ^ 64 := by
  rw [Int.bmod_def]
  split <;> split <;> omega

/-- One load tick: the size stays in the bounds exactly if the walk has room, and then follows it. -/
theorem tickLoad_follows (load : Int32) {r : Readings} (h : Follows cfg r s) (hroom : Room cfg (reflected r.wants)) :
    (InBounds cfg (s.tickLoad cfg load) ↔ Room cfg (reflected (r.add cfg (.tickLoad load)).wants)) ∧
      (Room cfg (reflected (r.add cfg (.tickLoad load)).wants) →
        Follows cfg (r.add cfg (.tickLoad load)) (s.tickLoad cfg load)) := by
  have hx := reflected_nonneg r.wants
  have hc := cfg.nonneg
  have hs := h.size
  have hsize := tickLoad_size load hx hs
  have hsum : (s.tickLoad cfg load).poolConnectionsSum = 0 := by
    unfold PoolLoop.tickLoad
    split <;> rfl
  have hw := want_cases cfg load s.poolConnectionsSum
  have hadd : reflected (r.add cfg (.tickLoad load)).wants =
      max 0 (reflected r.wants + want cfg load s.poolConnectionsSum) := by
    rw [Readings.add, reflected_concat, h.sum]
  unfold Room at hroom
  -- the new size, with the wrap of the addition at the largest `int`
  have hnew (y : Int) (hy : cfg.connPoolSize + reflected (r.add cfg (.tickLoad load)).wants = y) :
      (s.tickLoad cfg load).newPoolSize = y ∧ y < 2 ^ 63 ∨ (s.tickLoad cfg load).newPoolSize < 0 ∧ 2 ^ 63 ≤ y := by
    rw [hadd] at hy
    rw [hsize]
    rcases hw with hw | hw | hw
    · rw [hw] at hy ⊢
      rw [if_pos (by decide), bmod_succ (by omega) (by omega)]
      split <;> omega
    · rw [hw] at hy ⊢
      rw [if_neg (by decide)]
      split
      · rw [Int.bmod_eq_of_le (by omega) (by omega)]
        omega
      · omega
    · rw [hw] at hy ⊢
      rw [if_neg (by decide), if_neg fun h => absurd h.1 (by decide)]
      omega
  have hpos := reflected_nonneg (r.add cfg (.tickLoad load)).wants
  replace hnew := hnew _ rfl
  unfold InBounds Room
  exact ⟨by omega, fun hroom => ⟨hsum, by omega⟩⟩

theorem step_follows {r : Readings} (h : Follows cfg r s) (hroom : Moderate cfg r.wants)
    (hstep : loopStep cfg s a = some s') :
    (InBounds cfg s' ↔ Moderate cfg (r.add cfg a).wants) ∧
      (Moderate cfg (r.add cfg a).wants → Follows cfg (r.add cfg a) s') := by
  have hlast : Room cfg (reflected r.wants) := by
    obtain ⟨stretch, hstretch, hsum⟩ := exists_sum_eq_reflected r.wants
    exact hsum ▸ hroom stretch hstretch.isInfix
  have hs : InBounds cfg s := by
    have hx := reflected_nonneg r.wants
    have hsize := h.size
    unfold Room at hlast
    unfold InBounds
    omega
  cases a with
  | tickPool n =>
    obtain ⟨_, rfl⟩ := enabled hstep
    exact ⟨iff_of_true hs hroom, fun _ => ⟨by rw [Readings.add, h.sum], h.size⟩⟩
  | tickLoad load =>
    obtain ⟨_, rfl⟩ := enabled hstep
    obtain ⟨hiff, hnext⟩ := tickLoad_follows load h hlast
    rw [Readings.add, moderate_concat, and_iff_right hroom]
    exact ⟨hiff, hnext⟩
  | pushed | done =>
    obtain ⟨_, rfl⟩ := enabled hstep
    exact ⟨iff_of_true hs hroom, fun _ => ⟨h.sum, h.size⟩⟩

end

/-! ## Runs -/

section

variable {cfg : PoolConfig} {s : PoolLoop} {as : List LoopAction}

/-- Every state of the run is within the bounds. -/
def StaysWithin (cfg : PoolConfig) (maintainer : PoolLoop → LoopAction → Option PoolLoop)
    (as : List LoopAction) : Prop :=
  ∀ before, before <+: as → ∀ s, run maintainer (.initial cfg) before = some s → InBounds cfg s

theorem staysWithin_concat {a : LoopAction} (hrun : run (loopStep cfg) (.initial cfg) (as ++ [a]) = some s) :
    StaysWithin cfg (loopStep cfg) (as ++ [a]) ↔ StaysWithin cfg (loopStep cfg) as ∧ InBounds cfg s := by
  refine ⟨fun h => ⟨fun before hb => h before (hb.trans (List.prefix_append _ _)), h _ List.prefix_rfl s hrun⟩, ?_⟩
  rintro ⟨h, hs⟩ before hb s' hs'
  rcases List.prefix_concat_iff.mp hb with rfl | hb
  · exact Option.some.inj (hrun.symm.trans hs') ▸ hs
  · exact h before hb s' hs'

theorem staysWithin_nil (cfg : PoolConfig) : StaysWithin cfg (loopStep cfg) [] := by
  intro before hb s hs
  rw [List.prefix_nil.mp hb] at hs
  cases hs
  have hpos := cfg.nonneg
  exact ⟨le_rfl, by change cfg.connPoolSize ≤ 4 * cfg.connPoolSize; omega⟩

/-- The run is within the bounds exactly if its readings are moderate, and then its state follows them. -/
theorem run_follows (hint : cfg.connPoolSize < 2 ^ 63) (hrun : run (loopStep cfg) (.initial cfg) as = some s) :
    (StaysWithin cfg (loopStep cfg) as ↔ Moderate cfg (readings cfg as).wants) ∧
      (Moderate cfg (readings cfg as).wants → Follows cfg (readings cfg as) s) := by
  induction as using List.reverseRecOn generalizing s with
  | nil =>
    cases hrun
    refine ⟨iff_of_true (staysWithin_nil cfg) (moderate_nil hint), fun _ => ⟨rfl, ?_⟩⟩
    exact (add_zero _).symm
  | append_singleton as a ih =>
    have hconcat := staysWithin_concat hrun
    rw [run_append] at hrun
    obtain ⟨s₁, hs₁, hstep⟩ := Option.bind_eq_some_iff.mp hrun
    obtain ⟨s₂, hstep, hs₂⟩ := Option.bind_eq_some_iff.mp hstep
    cases hs₂
    obtain ⟨hiff, hfollows⟩ := ih hs₁
    have hreadings : readings cfg (as ++ [a]) = (readings cfg as).add cfg a := by simp [readings]
    -- what is moderate with one more tick was so before it
    have hearlier : Moderate cfg (readings cfg (as ++ [a])).wants → Moderate cfg (readings cfg as).wants := by
      rw [hreadings]
      cases a with
      | tickLoad load => exact fun h => (moderate_concat.mp h).1
      | tickPool n | pushed | done => exact fun h => h
    rw [hconcat, hiff]
    by_cases hmod : Moderate cfg (readings cfg as).wants
    · obtain ⟨hnext, hfol⟩ := step_follows (hfollows hmod) hmod hstep
      rw [hreadings, and_iff_right hmod]
      exact ⟨hnext, hfol⟩
    · exact ⟨iff_of_false (fun h => hmod h.1) fun h => hmod (hearlier h), fun h => absurd (hearlier h) hmod⟩

end

/-- The pool of a run stays between the configured size and four times that exactly if the readings of the run are
moderate. -/
theorem pool_within_iff_moderate (maintainer : PoolConfig → PoolLoop → LoopAction → Option PoolLoop)
    (hmaintainer : maintainer = wsPoolMaintainer ∨ maintainer = udpPoolMaintainer) (cfg : PoolConfig)
    (hint : cfg.connPoolSize < 2 ^ 63) (as : List LoopAction) (s : PoolLoop)
    (hrun : run (maintainer cfg) (.initial cfg) as = some s) :
    StaysWithin cfg (maintainer cfg) as ↔ Moderate cfg (readings cfg as).wants := by
  have hloop : maintainer cfg = loopStep cfg := by rcases hmaintainer with rfl | rfl <;> rfl
  rw [hloop] at hrun ⊢
  exact (run_follows hint hrun).1

/-- Three ticks without a connection, and then ten seconds with many. -/
def ebbing : List LoopAction := List.replicate 3 (.tickLoad 0) ++ [.tickPool 100, .tickLoad 0, .pushed, .tickLoad 0]

theorem pool_within_while_ebbing :
    (readings (applyDefaults 1 false) ebbing).wants = [1, 1, 1, -1, 1] ∧
    (∃ s, run (wsPoolMaintainer (applyDefaults 1 false)) (.initial (applyDefaults 1 false)) ebbing = some s ∧
      s.newPoolSize = 4) ∧
    StaysWithin (applyDefaults 1 false) (wsPoolMaintainer (applyDefaults 1 false)) ebbing := by
  have hwants : (readings (applyDefaults 1 false) ebbing).wants = [1, 1, 1, -1, 1] := by decide +kernel
  have hrun : ∃ s, run (wsPoolMaintainer (applyDefaults 1 false)) (.initial (applyDefaults 1 false)) ebbing = some s ∧
      s.newPoolSize = 4 := exists_run (by decide +kernel)
  refine ⟨hwants, hrun, ?_⟩
  obtain ⟨s, hs, -⟩ := hrun
  refine (pool_within_iff_moderate _ (.inl rfl) _ (by decide) ebbing s hs).mpr ?_
  rw [hwants]
  intro stretch h
  have hall : ∀ stretch ∈ ([1, 1, 1, -1, 1] : List Int).tails.flatMap List.inits, stretch.sum ≤ 3 := by decide
  have hle : stretch.sum ≤ 3 := by
    refine hall stretch (List.mem_flatMap.mpr ?_)
    obtain ⟨t, ht, hs⟩ := List.infix_iff_prefix_suffix.mp h
    exact ⟨t, List.mem_tails _ _ |>.mpr hs, List.mem_inits _ _ |>.mpr ht⟩
  have hone : (applyDefaults 1 false).connPoolSize = 1 := rfl
  rw [hone]
  omega

/-- With a server that accepts no pool connection, every reading is zero and every one of them makes the pool grow. -/
theorem pool_grows_past_limit :
    (run (wsPoolMaintainer (applyDefaults 1 false)) (.initial (applyDefaults 1 false))
        (List.replicate 4 (.tickLoad 0))).map (·.newPoolSize) = some 5 ∧
      (run (udpPoolMaintainer (applyDefaults 1 true)) (.initial (applyDefaults 1 true))
        (List.replicate 4 (.tickLoad 0))).map (·.newPoolSize) = some 5 ∧
      (applyDefaults 1 false).connPoolSize = 1 ∧ (applyDefaults 1 true).connPoolSize = 1 := by decide +kernel

end ArangeTun.Client
