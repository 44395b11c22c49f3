import ArangeTun.Go.Map
import ArangeTun.Go.Str
import ArangeTun.Go.Time
import ArangeTun.Transition.Run

/-!
# Alerts

The watcher of internal/telegram/alerts.go. The readings are rationals and the times are nanoseconds.
-/

namespace ArangeTun.Telegram

open Go Transition List Option

inductive Resource
  | cpu
  | mem
  | disk
  deriving DecidableEq

inductive Message
  | crossed (r : Resource) (value : ℚ) (threshold : Int) (extra : Str)
  | still (r : Resource) (value : ℚ) (extra : Str)
  | normal (r : Resource) (value : ℚ)
  | tunnelIsDown (name : Str)
  | tunnelWentDown (name : Str)
  | tunnelBackUp (name : Str)
  | tunnelGone (name : Str)
  | released (tag : Str)
  deriving DecidableEq

structure AlertState where
  firing : Bool
  lastSent : Int
  deriving DecidableEq

structure Watcher where
  states : Map Resource AlertState
  tunnelUp : List (Str × Bool)
  seeded : Bool

def newWatcher : Watcher := ⟨.empty, [], false⟩

/-- A pass of `checkAt`: the configuration, the readings and the clock, and the tag that `UpdateNeedsNotifying` gives. -/
structure Pass where
  threshold : Resource → Int
  cooldownMinutes : Int
  tunnelDown : Bool
  newRelease : Bool
  value : Resource → ℚ
  extra : Resource → Str
  tunnels : List (Str × Bool)
  release : Option Str
  now : Int

def clearMargin : Int := 5

def Pass.cooldown (p : Pass) : Int := (p.cooldownMinutes * 60000000000).bmod (2 ^ 64)

def checkState (p : Pass) (r : Resource) (st : AlertState) : AlertState × List Message :=
  if (p.threshold r : ℚ) ≤ p.value r then
    if st.firing = false then (⟨true, p.now⟩, [.crossed r (p.value r) (p.threshold r) (p.extra r)])
    else if p.cooldown ≤ timeSub p.now st.lastSent then
      ({ st with lastSent := p.now }, [.still r (p.value r) (p.extra r)])
    else (st, [])
  else if st.firing = true ∧ p.value r < ((p.threshold r - clearMargin : Int) : ℚ) then
    ({ st with firing := false }, [.normal r (p.value r)])
  else (st, [])

def stateOf (w : Watcher) (r : Resource) : AlertState := (w.states r).getD ⟨false, 0⟩

def resource (p : Pass) (r : Resource) (w : Watcher) : Watcher × List Message :=
  if p.threshold r ≤ 0 then (w, [])
  else
    let st := checkState p r (stateOf w r)
    ({ w with states := w.states.set r st.1 }, st.2)

def checkTunnel (known : List (Str × Bool)) (name : Str) (up : Bool) : List Message :=
  match known.lookup name with
  | none => if up then [] else [.tunnelIsDown name]
  | some was => if was && !up then [.tunnelWentDown name] else if !was && up then [.tunnelBackUp name] else []

def checkTunnels (w : Watcher) (now : List (Str × Bool)) : Watcher × List Message :=
  if w.seeded = false then ({ w with tunnelUp := now, seeded := true }, [])
  else
    ({ w with tunnelUp := now },
      now.flatMap (fun t => checkTunnel w.tunnelUp t.1 t.2) ++
        (w.tunnelUp.filter fun t => now.lookup t.1 = none).map fun t => .tunnelGone t.1)

def checkAt (w : Watcher) (p : Pass) : Watcher × List Message :=
  let cpu := resource p .cpu w
  let mem := resource p .mem cpu.1
  let disk := resource p .disk mem.1
  let tunnels := if p.tunnelDown then checkTunnels disk.1 p.tunnels else (disk.1, [])
  let release := if p.newRelease then p.release.toList.map .released else []
  (tunnels.1, cpu.2 ++ mem.2 ++ disk.2 ++ tunnels.2 ++ release)

def Resource.condition : Resource → Str
  | cpu => lit "Processor above threshold"
  | mem => lit "Memory above threshold"
  | disk => lit "Disk above threshold"

def activeConditions (w : Watcher) (tunnels : List (Str × Bool)) : List Str :=
  ([Resource.cpu, .mem, .disk].filter fun r => (stateOf w r).firing).map Resource.condition ++
    (tunnels.filter fun t => !t.2).map fun t => lit "Tunnel " ++ t.1 ++ lit " down"

/-! ## Runs -/

structure Sent where
  message : Message
  time : Int
  cooldown : Int

structure Alerts where
  watcher : Watcher
  sent : List Sent
  last : Option Int

def Alerts.initial : Alerts := ⟨newWatcher, [], none⟩

def pass (s : Alerts) (p : Pass) : Option Alerts :=
  some ⟨(checkAt s.watcher p).1, s.sent ++ (checkAt s.watcher p).2.map (⟨·, p.now, p.cooldown⟩), some p.now⟩

def Later (s : Alerts) (p : Pass) : Prop := ∀ t ∈ s.last, t ≤ p.now

instance (s : Alerts) (p : Pass) : Decidable (Later s p) := inferInstanceAs (Decidable (∀ t ∈ s.last, t ≤ p.now))

def Message.about : Message → Option Resource
  | crossed r .. | still r .. | normal r .. => some r
  | _ => none

/-- A block is an alert, reminders at least a cooldown apart, and a recovery; inside one, the time of the last message. -/
def follow (inside : Option Int) (e : Sent) : Option (Option Int) :=
  match inside, e.message with
  | none, .crossed .. => some (some e.time)
  | some t, .still .. => if e.cooldown ≤ e.time - t then some (some e.time) else none
  | some _, .normal .. => some none
  | _, _ => none

/-- The messages about a resource are blocks, the last one possibly still open. -/
def Blocks (r : Resource) (sent : List Sent) : Prop :=
  (run follow none (sent.filter fun e => e.message.about = some r)).isSome = true

/-- A resource is shown only while its check is enabled and its reading has not fallen clearly below the threshold. -/
def ShownLive (w : Watcher) (p : Pass) : Prop :=
  ∀ r, Resource.condition r ∈ activeConditions w p.tunnels →
    0 < p.threshold r ∧ ((p.threshold r - clearMargin : Int) : ℚ) ≤ p.value r

def KeepsFiring (w : Watcher) (p : Pass) : Prop := ∀ r, (stateOf w r).firing = true → 0 < p.threshold r

section

variable {p : Pass} {r : Resource} {st : AlertState}

def AlertState.inside (st : AlertState) : Option Int := if st.firing = true then some st.lastSent else none

theorem checkState_follow (hlast : ∀ t ∈ st.inside, t ≤ p.now) :
    run follow st.inside ((checkState p r st).2.map (⟨·, p.now, p.cooldown⟩)) = some (checkState p r st).1.inside := by
  unfold checkState
  split
  · split
    · rename_i hidle
      simp [AlertState.inside, hidle, run, follow]
    · rename_i hfiring
      rw [Bool.not_eq_false] at hfiring
      split
      · rename_i hcooldown
        have hgap : p.cooldown ≤ p.now - st.lastSent :=
          le_sub_of_le_timeSub hcooldown (hlast _ (by simp [AlertState.inside, hfiring]))
        simp [AlertState.inside, hfiring, run, follow, hgap]
      · rfl
  · split
    · rename_i hclear
      simp [AlertState.inside, hclear.1, run, follow]
    · rfl

theorem checkState_last (hlast : ∀ t ∈ st.inside, t ≤ p.now) : ∀ t ∈ (checkState p r st).1.inside, t ≤ p.now := by
  unfold checkState
  split
  · split
    · simp [AlertState.inside]
    · split
      · simp only [AlertState.inside]
        split <;> simp
      · exact hlast
  · split
    · simp [AlertState.inside]
    · exact hlast

theorem checkState_live (h : (checkState p r st).1.firing = true) :
    ((p.threshold r - clearMargin : Int) : ℚ) ≤ p.value r := by
  unfold checkState at h
  split at h
  · rename_i habove
    refine le_trans ?_ habove
    rw [Int.cast_le]
    unfold clearMargin
    omega
  · split at h
    · cases h
    · rename_i hclear
      exact le_of_not_gt fun hlt => hclear ⟨h, hlt⟩

theorem checkState_about : ∀ m ∈ (checkState p r st).2, m.about = some r := by
  unfold checkState
  split
  · split
    · simp [Message.about]
    · split <;> simp [Message.about]
  · split <;> simp [Message.about]

end

/-! ## A pass -/

section

variable (p : Pass) (w : Watcher) (r : Resource)

theorem stateOf_resource (r' : Resource) : stateOf (resource p r' w).1 r =
    if r = r' ∧ 0 < p.threshold r' then (checkState p r' (stateOf w r')).1 else stateOf w r := by
  unfold resource
  split
  · rw [if_neg (by omega)]
  · by_cases hr : r = r'
    · subst hr
      rw [if_pos ⟨rfl, by omega⟩]
      simp [stateOf]
    · rw [if_neg (fun h => hr h.1)]
      simp [stateOf, Map.set_of_ne hr]

theorem filter_resource (r' : Resource) : (resource p r' w).2.filter (·.about = some r) =
    if r = r' ∧ 0 < p.threshold r' then (checkState p r' (stateOf w r')).2 else [] := by
  unfold resource
  split
  · rw [if_neg (by omega)]
    rfl
  · by_cases hr : r = r'
    · subst hr
      rw [if_pos ⟨rfl, by omega⟩]
      exact filter_eq_self.mpr fun m hm => decide_eq_true (checkState_about m hm)
    · rw [if_neg (fun h => hr h.1)]
      refine filter_eq_nil_iff.mpr fun m hm => ?_
      rw [checkState_about m hm, decide_eq_true_eq, Option.some.injEq]
      exact fun h => hr h.symm

theorem stateOf_checkTunnels (now : List (Str × Bool)) : stateOf (checkTunnels w now).1 r = stateOf w r := by
  unfold checkTunnels
  split <;> rfl

theorem filter_checkTunnels (now : List (Str × Bool)) : (checkTunnels w now).2.filter (·.about = some r) = [] := by
  refine filter_eq_nil_iff.mpr fun m hm => ?_
  unfold checkTunnels at hm
  split at hm
  · cases hm
  · have habout : m.about = none := by
      rcases mem_append.mp hm with hm | hm
      · obtain ⟨t, -, hm⟩ := mem_flatMap.mp hm
        unfold checkTunnel at hm
        split at hm
        · split at hm <;> simp_all [Message.about]
        · split at hm
          · simp_all [Message.about]
          · split at hm <;> simp_all [Message.about]
      · obtain ⟨t, -, rfl⟩ := List.mem_map.mp hm
        rfl
    rw [habout]
    simp

theorem stateOf_checkAt : stateOf (checkAt w p).1 r =
    if 0 < p.threshold r then (checkState p r (stateOf w r)).1 else stateOf w r := by
  have htunnels : stateOf (checkAt w p).1 r =
      stateOf (resource p .disk (resource p .mem (resource p .cpu w).1).1).1 r := by
    unfold checkAt
    cases p.tunnelDown
    · rfl
    · exact stateOf_checkTunnels _ _ _
  rw [htunnels]
  cases r <;> simp [stateOf_resource]

theorem filter_checkAt : (checkAt w p).2.filter (·.about = some r) =
    if 0 < p.threshold r then (checkState p r (stateOf w r)).2 else [] := by
  have hrelease : (if p.newRelease then p.release.toList.map Message.released else []).filter (·.about = some r) = [] := by
    cases p.newRelease <;> cases p.release <;> simp [Message.about]
  have htunnels : (if p.tunnelDown then checkTunnels (resource p .disk (resource p .mem (resource p .cpu w).1).1).1 p.tunnels
      else ((resource p .disk (resource p .mem (resource p .cpu w).1).1).1, [])).2.filter (·.about = some r) = [] := by
    cases p.tunnelDown
    · rfl
    · exact filter_checkTunnels _ _ _
  simp only [checkAt, filter_append, hrelease, htunnels, filter_resource, append_nil]
  cases r <;> simp [stateOf_resource]

theorem condition_mem_activeConditions (tunnels : List (Str × Bool)) :
    r.condition ∈ activeConditions w tunnels ↔ (stateOf w r).firing = true := by
  have htunnel : ∀ name : Str, r.condition ≠ lit "Tunnel " ++ name ++ lit " down" := by
    intro name heq
    have hhead := congrArg List.head? heq
    cases r <;> cases hhead
  have hinj : ∀ r', Resource.condition r' = r.condition → r' = r := by
    intro r'
    cases r <;> cases r' <;> decide
  simp only [activeConditions, mem_append, List.mem_map, mem_filter]
  constructor
  · rintro (⟨r', ⟨-, hfiring⟩, hr'⟩ | ⟨t, -, ht⟩)
    · rwa [← hinj r' hr']
    · exact absurd ht.symm (htunnel t.1)
  · intro hfiring
    exact .inl ⟨r, ⟨by cases r <;> simp, hfiring⟩, rfl⟩

theorem shownLive_iff : ShownLive (checkAt w p).1 p ↔ KeepsFiring w p := by
  simp only [ShownLive, KeepsFiring, condition_mem_activeConditions, stateOf_checkAt]
  refine forall_congr' fun r => ?_
  by_cases hon : 0 < p.threshold r
  · rw [if_pos hon]
    exact iff_of_true (fun h => ⟨hon, checkState_live h⟩) fun _ => hon
  · rw [if_neg hon]
    exact ⟨fun h hfiring => (h hfiring).1, fun h hfiring => absurd (h hfiring) hon⟩

end

/-! ## Whole runs -/

/-- The state of a resource is where the messages about it have come to. -/
structure Following (s : Alerts) (r : Resource) : Prop where
  messages : run follow none (s.sent.filter fun e => e.message.about = some r) = some (stateOf s.watcher r).inside
  last : ∀ t ∈ (stateOf s.watcher r).inside, ∃ u ∈ s.last, t ≤ u

theorem Following.pass {s s' : Alerts} {p : Pass} {r : Resource} (h : Following s r) (hlater : Later s p)
    (hstep : pass s p = some s') : Following s' r := by
  cases hstep
  have hlast : ∀ t ∈ (stateOf s.watcher r).inside, t ≤ p.now := by
    intro t ht
    obtain ⟨u, hu, htu⟩ := h.last t ht
    exact le_trans htu (hlater u hu)
  have hfilter : ((checkAt s.watcher p).2.map (Sent.mk · p.now p.cooldown)).filter (fun e => e.message.about = some r) =
      ((checkAt s.watcher p).2.filter (·.about = some r)).map (⟨·, p.now, p.cooldown⟩) := List.filter_map
  refine ⟨?_, fun t ht => ⟨p.now, rfl, ?_⟩⟩
  · rw [filter_append, run_append, h.messages, bind_some, hfilter, filter_checkAt, stateOf_checkAt]
    split
    · exact checkState_follow hlast
    · rfl
  · rw [stateOf_checkAt] at ht
    split at ht
    · exact checkState_last hlast t ht
    · exact hlast t ht

theorem following {s : Alerts} (h : Reach pass Later .initial s) (r : Resource) : Following s r :=
  h.invariant (I := fun s => Following s r) ⟨rfl, nofun⟩ fun _ _ _ hs hlater hstep => hs.pass hlater hstep

/-- The messages about a resource are blocks of an alert, reminders at least a cooldown apart and a recovery. -/
theorem alerts_in_blocks (s : Alerts) (h : Reach pass Later .initial s) :
    (∀ r, Blocks r s.sent) ∧
      ∀ p s', pass s p = some s' → (ShownLive s'.watcher p ↔ KeepsFiring s.watcher p) := by
  refine ⟨fun r => ?_, fun p s' hstep => ?_⟩
  · rw [Blocks, (following h r).messages]
    rfl
  · cases hstep
    exact shownLive_iff p s.watcher

def processorPass (threshold : Int) (value : ℚ) (now : Int) : Pass :=
  ⟨fun r => if r = .cpu then threshold else 0, 30, false, false, fun _ => value, fun _ => [], [], none, now⟩

theorem alert_and_recovery_in_blocks : ∃ s, Reach pass Later .initial s ∧
    s.sent.map (·.message) = [.crossed .cpu 90 85 [], .normal .cpu 70] ∧ ∀ r, Blocks r s.sent := by
  have h : Reach pass Later .initial _ :=
    .next (a := processorPass 85 70 60) (.next (a := processorPass 85 90 0) .init (by decide) rfl) (by decide) rfl
  exact ⟨_, h, by decide +kernel, (alerts_in_blocks _ h).1⟩

/-- A check switched off while firing is shown for good, whatever its reading. -/
theorem shown_after_switched_off : ∃ s p s', Reach pass Later .initial s ∧ Later s p ∧ pass s p = some s' ∧
    p.threshold .cpu = 0 ∧ Resource.condition .cpu ∈ activeConditions s'.watcher p.tunnels ∧
    ¬ ShownLive s'.watcher p := by
  have h : Reach pass Later .initial _ := .next (a := processorPass 85 90 0) .init (by decide) rfl
  refine ⟨_, processorPass 0 10 60, _, h, by decide, rfl, rfl, by decide +kernel, fun hshown => ?_⟩
  exact absurd ((shownLive_iff _ _).mp hshown .cpu (by decide +kernel)) (by decide)

end ArangeTun.Telegram
