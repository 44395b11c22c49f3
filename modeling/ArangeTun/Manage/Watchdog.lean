import ArangeTun.Go.Str
import ArangeTun.Go.Time
import ArangeTun.Transition.Run

/-!
# The watchdog's restraint

`RunWatchdog` of internal/manage/watchdog.go, with the clock of each call.
-/

namespace ArangeTun.Manage.Watchdog

open Go Transition List Option

def wdThreshold : Int := 2

def wdCooldown : Int := 180000000000

structure Memory where
  fails : Str → Int
  lastRestart : Str → Option Int
  seenHealthy : Str → Bool

structure Look where
  name : Str
  active : Bool
  healthy : Bool
  since : Int
  now : Int

/-- `time.Since(lastRestart[t.Name]) > wdCooldown`; an entry that is missing is the zero time. -/
def Memory.cooled (m : Memory) (l : Look) : Bool :=
  match m.lastRestart l.name with
  | none => true
  | some t => decide (wdCooldown < timeSub l.since t)

def look (m : Memory) (l : Look) : Memory × Bool :=
  let calm := { m with fails := Function.update m.fails l.name 0 }
  if l.active = false then (calm, false)
  else if l.healthy = true then ({ calm with seenHealthy := Function.update m.seenHealthy l.name true }, false)
  else if m.seenHealthy l.name = false then (m, false)
  else
    let fails := (m.fails l.name + 1).bmod (2 ^ 64)
    if wdThreshold ≤ fails ∧ m.cooled l = true then
      ({ calm with lastRestart := Function.update m.lastRestart l.name (some l.now) }, true)
    else ({ m with fails := Function.update m.fails l.name fails }, false)

/-- `List` has no name twice: each one is that of a file in the directory. -/
structure Pass where
  looks : List Look
  distinct : (looks.map (·.name)).Nodup

/-- A look with the number of its pass and whether the tunnel was restarted. -/
structure Entry where
  pass : Nat
  look : Look
  restarted : Bool

structure State where
  memory : Memory
  log : List Entry
  passes : Nat

def State.initial : State := ⟨⟨fun _ => 0, fun _ => none, fun _ => false⟩, [], 0⟩

def record (k : Nat) (x : Memory × List Entry) (l : Look) : Memory × List Entry :=
  ((look x.1 l).1, x.2 ++ [⟨k, l, (look x.1 l).2⟩])

def step (s : State) (p : Pass) : Option State :=
  let x := p.looks.foldl (record s.passes) (s.memory, s.log)
  some ⟨x.1, x.2, s.passes + 1⟩

/-! ## Restraint -/

def lastLook (log : List Entry) (name : Str) : Option Entry := (log.filter (·.look.name = name)).getLast?

def lastRestart (log : List Entry) (name : Str) : Option Entry :=
  (log.filter fun e => e.restarted ∧ e.look.name = name).getLast?

/-- Active and unhealthy now and when the tunnel was last looked at, healthy in some earlier pass, and the cooldown has
passed since the last restart. -/
structure Justified (log : List Entry) (e : Entry) : Prop where
  unhealthy : e.look.active = true ∧ e.look.healthy = false
  before : ∃ d, lastLook log e.look.name = some d ∧ d.pass < e.pass ∧ d.look.active = true ∧ d.look.healthy = false
  seen : ∃ d ∈ log, d.look.name = e.look.name ∧ d.pass < e.pass ∧ d.look.active = true ∧ d.look.healthy = true
  cooled : ∀ d, lastRestart log e.look.name = some d → wdCooldown < e.look.since - d.look.now

def Restrained (log : List Entry) : Prop :=
  ∀ earlier e later, log = earlier ++ e :: later → e.restarted = true → Justified earlier e

section

variable {m : Memory} {l : Look} {log : List Entry} {name : Str} {e : Entry} {k : Nat}

theorem lastLook_concat : lastLook (log ++ [e]) name = if e.look.name = name then some e else lastLook log name := by
  unfold lastLook
  rw [filter_append]
  split
  · rename_i hname
    simp [hname]
  · rename_i hname
    simp [hname]

theorem lastRestart_concat : lastRestart (log ++ [e]) name =
    if e.restarted = true ∧ e.look.name = name then some e else lastRestart log name := by
  unfold lastRestart
  rw [filter_append]
  split
  · rename_i h
    simp [h]
  · rename_i h
    simp [h]

theorem restrained_concat (h : Restrained log) (he : e.restarted = true → Justified log e) :
    Restrained (log ++ [e]) := by
  intro earlier d later hlog hd
  rcases eq_nil_or_concat later with rfl | ⟨later, x, rfl⟩
  · obtain ⟨rfl, hde⟩ := append_inj' hlog rfl
    cases hde
    exact he hd
  · rw [concat_eq_append, ← cons_append, ← append_assoc] at hlog
    exact h earlier d later (append_inj' hlog rfl).1 hd

structure Remembers (m : Memory) (log : List Entry) (name : Str) : Prop where
  fails : m.fails name ≠ 0 →
    ∃ d, lastLook log name = some d ∧ d.look.active = true ∧ d.look.healthy = false
  seen : m.seenHealthy name = true →
    ∃ d ∈ log, d.look.name = name ∧ d.look.active = true ∧ d.look.healthy = true
  restart : m.lastRestart name = (lastRestart log name).map (·.look.now)

theorem look_other (h : name ≠ l.name) : (look m l).1.fails name = m.fails name ∧
    (look m l).1.lastRestart name = m.lastRestart name ∧ (look m l).1.seenHealthy name = m.seenHealthy name := by
  simp only [look]
  repeat' split
  all_goals simp [Function.update_of_ne h]

theorem Remembers.other (h : Remembers m log name) (hname : name ≠ l.name) :
    Remembers (look m l).1 (log ++ [⟨k, l, (look m l).2⟩]) name := by
  obtain ⟨hfails, hrestart, hseen⟩ := look_other (m := m) hname
  refine ⟨fun hf => ?_, fun hs => ?_, ?_⟩
  · rw [lastLook_concat, if_neg (Ne.symm hname)]
    exact h.fails (hfails ▸ hf)
  · obtain ⟨d, hd, hd'⟩ := h.seen (hseen ▸ hs)
    exact ⟨d, mem_append_left _ hd, hd'⟩
  · rw [hrestart, lastRestart_concat, if_neg fun he => hname he.2.symm]
    exact h.restart

theorem Remembers.self (h : Remembers m log l.name) :
    Remembers (look m l).1 (log ++ [⟨k, l, (look m l).2⟩]) l.name := by
  have hkept : m.lastRestart l.name = ((lastRestart (log ++ [⟨k, l, false⟩]) l.name).map (·.look.now)) := by
    rw [lastRestart_concat, if_neg (by simp)]
    exact h.restart
  have hseen : m.seenHealthy l.name = true → ∃ d ∈ log ++ [Entry.mk k l (look m l).2],
      d.look.name = l.name ∧ d.look.active = true ∧ d.look.healthy = true := by
    intro hs
    obtain ⟨d, hd, hd'⟩ := h.seen hs
    exact ⟨d, mem_append_left _ hd, hd'⟩
  simp only [look] at hseen ⊢
  by_cases hactive : l.active = false
  · simp only [if_pos hactive] at hseen ⊢
    exact ⟨fun hf => absurd (Function.update_self ..) hf, hseen, hkept⟩
  simp only [if_neg hactive] at hseen ⊢
  rw [Bool.not_eq_false] at hactive
  by_cases hhealthy : l.healthy = true
  · simp only [if_pos hhealthy] at hseen ⊢
    refine ⟨fun hf => absurd (Function.update_self ..) hf, fun _ => ?_, hkept⟩
    exact ⟨⟨k, l, false⟩, by simp, rfl, hactive, hhealthy⟩
  simp only [if_neg hhealthy] at hseen ⊢
  rw [Bool.not_eq_true] at hhealthy
  have hlast : ∀ b, ∃ d, lastLook (log ++ [⟨k, l, b⟩]) l.name = some d ∧ d.look.active = true ∧ d.look.healthy = false :=
    fun b => ⟨⟨k, l, b⟩, by rw [lastLook_concat, if_pos rfl], hactive, hhealthy⟩
  by_cases hnew : m.seenHealthy l.name = false
  · simp only [if_pos hnew] at hseen ⊢
    exact ⟨fun _ => hlast _, hseen, hkept⟩
  simp only [if_neg hnew] at hseen ⊢
  split
  · rename_i hrestart
    simp only [if_pos hrestart] at hseen
    refine ⟨fun _ => hlast _, hseen, ?_⟩
    rw [lastRestart_concat, if_pos ⟨rfl, rfl⟩]
    exact Function.update_self ..
  · rename_i hrestart
    simp only [if_neg hrestart] at hseen
    exact ⟨fun _ => hlast _, hseen, hkept⟩

/-- The looks so far are of this pass or of earlier ones, and of earlier ones for the tunnels that are still to come. -/
def Numbered (k : Nat) (names : List Str) (log : List Entry) : Prop :=
  ∀ d ∈ log, d.pass ≤ k ∧ (d.look.name ∈ names → d.pass < k)

theorem look_restarts (h : (look m l).2 = true) : (l.active = true ∧ l.healthy = false) ∧ m.seenHealthy l.name = true ∧
    m.fails l.name ≠ 0 ∧ m.cooled l = true := by
  simp only [look] at h
  split at h
  · cases h
  · rename_i hactive
    split at h
    · cases h
    · rename_i hhealthy
      split at h
      · cases h
      · rename_i hseen
        split at h
        · rename_i hrestart
          refine ⟨⟨by simpa using hactive, by simpa using hhealthy⟩, by simpa using hseen, fun hf => ?_, hrestart.2⟩
          rw [hf] at hrestart
          exact absurd hrestart.1 (by decide)
        · cases h

theorem justified {names : List Str} (h : Remembers m log l.name) (hk : Numbered k (l.name :: names) log)
    (hrestart : (look m l).2 = true) : Justified log ⟨k, l, true⟩ := by
  obtain ⟨hunhealthy, hseen, hfails, hcooled⟩ := look_restarts hrestart
  have hpass : ∀ d ∈ log, d.look.name = l.name → d.pass < k :=
    fun d hd hname => (hk d hd).2 (hname ▸ mem_cons_self)
  obtain ⟨d, hd, hd'⟩ := h.fails hfails
  have hmem := mem_filter.mp (mem_of_getLast? hd)
  obtain ⟨c, hc, hname, hc'⟩ := h.seen hseen
  refine ⟨hunhealthy, ⟨d, hd, hpass d hmem.1 (of_decide_eq_true hmem.2), hd'⟩, ⟨c, hc, hname, hpass c hc hname, hc'⟩, ?_⟩
  intro r hr
  have hlast := h.restart
  rw [show lastRestart log l.name = some r from hr, map_some] at hlast
  rw [Memory.cooled, hlast] at hcooled
  exact lt_sub_of_lt_timeSub (of_decide_eq_true hcooled) (by decide)

end

/-! ## Passes -/

structure Within (k : Nat) (names : List Str) (x : Memory × List Entry) : Prop where
  remembers : ∀ name, Remembers x.1 x.2 name
  restrained : Restrained x.2
  numbered : Numbered k names x.2

theorem Within.record {k : Nat} {names : List Str} {x : Memory × List Entry} {l : Look}
    (h : Within k (l.name :: names) x) (hnew : l.name ∉ names) : Within k names (record k x l) := by
  refine ⟨fun name => ?_, restrained_concat h.restrained fun he => ?_, fun d hd => ?_⟩
  · by_cases hname : name = l.name
    · subst hname
      exact (h.remembers l.name).self
    · exact (h.remembers name).other hname
  · change (look x.1 l).2 = true at he
    rw [he]
    exact justified (h.remembers l.name) h.numbered he
  · rcases mem_append.mp hd with hd | hd
    · exact ⟨(h.numbered d hd).1, fun hname => (h.numbered d hd).2 (mem_cons_of_mem _ hname)⟩
    · cases mem_singleton.mp hd
      exact ⟨le_rfl, fun hname => absurd hname hnew⟩

theorem Within.looks {k : Nat} {looks : List Look} {x : Memory × List Entry} (h : Within k (looks.map (·.name)) x)
    (hdistinct : (looks.map (·.name)).Nodup) : Within k [] (looks.foldl (Watchdog.record k) x) := by
  induction looks generalizing x with
  | nil => exact h
  | cons l looks ih =>
    obtain ⟨hnew, hrest⟩ := nodup_cons.mp hdistinct
    exact ih (h.record hnew) hrest

theorem within {s : State} (h : Reach step Any .initial s) :
    Within s.passes [] (s.memory, s.log) ∧ ∀ d ∈ s.log, d.pass < s.passes := by
  refine h.invariant (I := fun s => Within s.passes [] (s.memory, s.log) ∧ ∀ d ∈ s.log, d.pass < s.passes) ?_ ?_
  · refine ⟨⟨fun name => ⟨fun hf => absurd rfl hf, nofun, rfl⟩, fun earlier e later hlog => ?_, nofun⟩, nofun⟩
    exact absurd hlog (by simp [State.initial])
  · rintro s p s' ⟨hs, hpasses⟩ - hstep
    cases hstep
    have hstart : Within s.passes (p.looks.map (·.name)) (s.memory, s.log) :=
      ⟨hs.remembers, hs.restrained, fun d hd => ⟨(hpasses d hd).le, fun _ => hpasses d hd⟩⟩
    have hend := hstart.looks p.distinct
    have hlt : ∀ d ∈ (p.looks.foldl (record s.passes) (s.memory, s.log)).2, d.pass < s.passes + 1 :=
      fun d hd => Nat.lt_succ_of_le (hend.numbered d hd).1
    exact ⟨⟨hend.remembers, hend.restrained, fun d hd => ⟨(hlt d hd).le, fun _ => hlt d hd⟩⟩, hlt⟩

/-- In every run, each restart is justified by what the passes saw before it. -/
theorem watchdog_restrained (s : State) (h : Reach step Any .initial s) : Restrained s.log := (within h).1.restrained

def lookAt (healthy : Bool) (now : Int) : Pass := ⟨[⟨lit "t", true, healthy, now, now⟩], by simp⟩

theorem watchdog_restrained_dropped : ∃ s, Reach step Any .initial s ∧
    s.log.map (·.restarted) = [false, false, true] ∧ Restrained s.log := by
  have h : Reach step Any .initial _ :=
    .next (a := lookAt false 50) (.next (a := lookAt false 25) (.next (a := lookAt true 0) .init trivial rfl) trivial rfl)
      trivial rfl
  exact ⟨_, h, by decide +kernel, watchdog_restrained _ h⟩

end ArangeTun.Manage.Watchdog
