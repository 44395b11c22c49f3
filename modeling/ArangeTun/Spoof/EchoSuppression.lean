import ArangeTun.Transition.Run

/-!
# Silencing the kernel's echo replies

internal/utils/network/icmpecho_linux.go. The mutex makes each call one step.
-/

namespace ArangeTun.Spoof

open Transition

structure IcmpEcho where
  refs : Nat
  prev : Nat
  setting : Nat
  before : Nat
  deriving DecidableEq

/-- The calls, with what comes of reading and of writing the proc file. -/
inductive EchoCall
  | acquire (read written : Bool)
  | release (written : Bool)
  deriving DecidableEq

def acquireICMPEchoSuppression (s : IcmpEcho) (read written : Bool) : IcmpEcho :=
  if 0 < s.refs then { s with refs := s.refs + 1 }
  else
    let prev := if read then s.setting else 0
    ⟨1, prev, if prev ≠ 1 ∧ written then 1 else s.setting, s.setting⟩

def releaseICMPEchoSuppression (s : IcmpEcho) (written : Bool) : IcmpEcho :=
  if s.refs = 0 then s
  else if 1 < s.refs then { s with refs := s.refs - 1 }
  else { s with refs := 0, setting := if s.prev ≠ 1 ∧ written then s.prev else s.setting }

def IcmpEcho.step (s : IcmpEcho) : EchoCall → Option IcmpEcho
  | .acquire read written => some (acquireICMPEchoSuppression s read written)
  | .release written => if 0 < s.refs then some (releaseICMPEchoSuppression s written) else none

/-- The first `acquire` of a period writes the setting. -/
def Silences (s : IcmpEcho) : EchoCall → Prop
  | .acquire _ written => s.refs = 0 → written
  | .release _ => True

/-- The first `acquire` of a period reads the setting, and its last `release` writes it. -/
def Restores (s : IcmpEcho) : EchoCall → Prop
  | .acquire read _ => s.refs = 0 → read
  | .release written => s.refs = 1 → written

instance (s : IcmpEcho) : (c : EchoCall) → Decidable (Silences s c)
  | .acquire _ written => inferInstanceAs (Decidable (s.refs = 0 → written = true))
  | .release _ => isTrue trivial

instance (s : IcmpEcho) : (c : EchoCall) → Decidable (Restores s c)
  | .acquire read _ => inferInstanceAs (Decidable (s.refs = 0 → read = true))
  | .release written => inferInstanceAs (Decidable (s.refs = 1 → written = true))

theorem setting_of_silences {setting : Nat} {s : IcmpEcho}
    (h : Reach IcmpEcho.step Silences ⟨0, 0, setting, setting⟩ s) (hheld : 0 < s.refs) : s.setting = 1 := by
  refine h.invariant (I := fun s => 0 < s.refs → s.setting = 1) nofun (fun s call s' hs hcall hstep => ?_) hheld
  cases call with
  | acquire read written =>
    cases hstep
    unfold acquireICMPEchoSuppression
    split
    next hheld => exact fun _ => hs hheld
    next hfree =>
      intro _
      obtain rfl : written = true := hcall (Nat.eq_zero_of_not_pos hfree)
      by_cases hone : s.setting = 1 <;> cases read <;> simp [hone]
  | release written =>
    obtain ⟨hheld, rfl⟩ := enabled hstep
    unfold releaseICMPEchoSuppression
    rw [if_neg (Nat.pos_iff_ne_zero.mp hheld)]
    split
    · exact fun _ => hs hheld
    · exact nofun

/-- While the setting is suppressed it is known what it was, and a 1 stays. -/
theorem setting_of_restores {setting : Nat} {s : IcmpEcho}
    (h : Reach IcmpEcho.step Restores ⟨0, 0, setting, setting⟩ s) (hfree : s.refs = 0) : s.setting = s.before := by
  have hinv : (0 < s.refs → s.prev = s.before ∧ (s.before = 1 → s.setting = 1)) ∧
      (s.refs = 0 → s.setting = s.before) := by
    refine h.invariant (I := fun s => (0 < s.refs → s.prev = s.before ∧ (s.before = 1 → s.setting = 1)) ∧
      (s.refs = 0 → s.setting = s.before)) ⟨nofun, fun _ => rfl⟩ fun s call s' hs hcall hstep => ?_
    cases call with
    | acquire read written =>
      cases hstep
      unfold acquireICMPEchoSuppression
      split
      next hheld => exact ⟨fun _ => hs.1 hheld, nofun⟩
      next hfree =>
        obtain rfl : read = true := hcall (Nat.eq_zero_of_not_pos hfree)
        refine ⟨fun _ => ⟨rfl, fun (hone : s.setting = 1) => ?_⟩, nofun⟩
        simp [hone]
    | release written =>
      obtain ⟨hheld, rfl⟩ := enabled hstep
      obtain ⟨hprev, hstays⟩ := hs.1 hheld
      unfold releaseICMPEchoSuppression
      rw [if_neg (Nat.pos_iff_ne_zero.mp hheld)]
      split
      next hmore => exact ⟨fun _ => ⟨hprev, hstays⟩, fun hz => absurd hz (Nat.sub_ne_zero_of_lt hmore)⟩
      next hlast =>
        obtain rfl : written = true := hcall (Nat.le_antisymm (Nat.not_lt.mp hlast) hheld)
        refine ⟨nofun, fun _ => ?_⟩
        by_cases hone : s.before = 1 <;> simp [hprev, hone, hstays]
  exact hinv.2 hfree

/-- While it is held the setting is 1, and afterwards it is what it was before. -/
theorem echo_restored {setting : Nat} {s : IcmpEcho} :
    (Reach IcmpEcho.step Silences ⟨0, 0, setting, setting⟩ s → 0 < s.refs → s.setting = 1) ∧
      (Reach IcmpEcho.step Restores ⟨0, 0, setting, setting⟩ s → s.refs = 0 → s.setting = s.before) :=
  ⟨setting_of_silences, setting_of_restores⟩

theorem two_carriers_restored :
    (∃ s, Reach IcmpEcho.step Silences ⟨0, 0, 0, 0⟩ s ∧ 0 < s.refs ∧ s.setting = 1) ∧
      ∃ s, Reach IcmpEcho.step Restores ⟨0, 0, 0, 0⟩ s ∧ s.refs = 0 ∧ s.setting = s.before := by
  obtain ⟨s, hs, hheld⟩ : ∃ s, Reach IcmpEcho.step Silences ⟨0, 0, 0, 0⟩ s ∧ 0 < s.refs :=
    exists_reach [.acquire true true, .acquire true true, .release true] (by decide)
  obtain ⟨t, ht, hfree⟩ : ∃ s, Reach IcmpEcho.step Restores ⟨0, 0, 0, 0⟩ s ∧ s.refs = 0 :=
    exists_reach [.acquire true true, .acquire true true, .release true, .release true] (by decide)
  exact ⟨⟨s, hs, hheld, echo_restored.1 hs hheld⟩, t, ht, hfree, echo_restored.2 ht hfree⟩

/-- The proc file cannot be written. Or it cannot be read when the setting is 1. -/
theorem best_effort : (∃ s, Reach IcmpEcho.step Any ⟨0, 0, 0, 0⟩ s ∧ (0 < s.refs ∧ s.setting = 0)) ∧
    ∃ s, Reach IcmpEcho.step Any ⟨0, 0, 1, 1⟩ s ∧ (s.refs = 0 ∧ s.before = 1 ∧ s.setting = 0) :=
  ⟨exists_reach [.acquire true false] (by decide), exists_reach [.acquire false true, .release true] (by decide)⟩

end ArangeTun.Spoof
