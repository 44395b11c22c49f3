import ArangeTun.Go.Chan
import ArangeTun.Transition.Table

/-!
# The connection limit, and the loop that accepts local connections

internal/server/transport/limits.go, and `acceptLocalConn`.
-/

namespace ArangeTun.Server

open Go

def maxConns (maxConnections : Nat) : Int := (maxConnections : Int).bmod (2 ^ 32)

/-- The first half of `acquire`: `active` after `Add(1)`, and whether the slot is granted. At most `max` and one for
each accept loop are counted, so that the `int32` does not wrap while `max` and the accept loops are below `2 ^ 31`. -/
def acquire (max active : Int) : Int × Bool :=
  if max ≤ 0 then (active, true) else (active + 1, decide (active + 1 ≤ max))

def release (max active : Int) : Int := if max ≤ 0 then active else active - 1

structure LocalConn where
  timeCreated : Nat
  deriving DecidableEq

/-- A connection is closed when it has waited longer than this many milliseconds. -/
def Expired (now : Nat) (c : LocalConn) : Prop := 3000 < now - c.timeCreated

instance (now : Nat) (c : LocalConn) : Decidable (Expired now c) :=
  inferInstanceAs (Decidable (3000 < now - c.timeCreated))

inductive AcceptPc
  | idle
  | refusing
  | admitted
  | dropping
  | returned
  deriving DecidableEq

inductive AcceptEvent
  | accept
  | giveBack
  | enqueue
  | drop
  | leave
  deriving DecidableEq

structure Front (size : Nat) where
  active : Int
  localChannel : Chan LocalConn size
  deriving DecidableEq

variable {size : Nat}

def acceptLocalConn (max : Int) (now : Nat) (done : Bool) (f : Front size) (pc : AcceptPc) :
    AcceptEvent → Option (Front size × AcceptPc)
  | .accept =>
    match pc with
    | .idle =>
      let r := acquire max f.active
      some ({ f with active := r.1 }, if r.2 then .admitted else .refusing)
    | _ => none
  | .giveBack =>
    match pc with
    | .refusing => some ({ f with active := f.active - 1 }, .idle)
    | _ => none
  | .enqueue =>
    match pc with
    | .admitted =>
      match f.localChannel.trySend ⟨now⟩ with
      | some ch => some ({ f with localChannel := ch }, .idle)
      | none => some ({ f with active := release max f.active }, .dropping)
    | _ => none
  | .drop =>
    match pc with
    | .dropping => some (f, .idle)
    | _ => none
  | .leave =>
    match pc with
    | .idle => if done then some (f, .returned) else none
    | _ => none

/-! ## Slots -/

def AcceptPc.slot : AcceptPc → Bool
  | .refusing | .admitted => true
  | .idle | .dropping | .returned => false

def AcceptPc.isOpen : AcceptPc → Bool
  | .admitted | .dropping => true
  | .idle | .refusing | .returned => false

theorem bmod_of_lt {m : Nat} (h : m < 2 ^ 31) : (m : Int).bmod (2 ^ 32) = m := by
  rw [Int.bmod_def]
  split <;> omega

theorem maxConns_of_lt {m : Nat} (h : m < 2 ^ 31) : maxConns m = m := bmod_of_lt h

theorem maxConns_pos {m : Nat} (hpos : 0 < m) (h : m < 2 ^ 31) : 0 < maxConns m := by
  rw [maxConns_of_lt h]
  omega

inductive Accepts (max : Int) (now : Nat) (f : Front size) :
    AcceptPc → AcceptEvent → Front size → AcceptPc → Prop
  | granted : f.active + 1 ≤ max → Accepts max now f .idle .accept { f with active := f.active + 1 } .admitted
  | refused : max < f.active + 1 → Accepts max now f .idle .accept { f with active := f.active + 1 } .refusing
  | gaveBack : Accepts max now f .refusing .giveBack { f with active := f.active - 1 } .idle
  | queued {ch} : f.localChannel.trySend ⟨now⟩ = some ch →
      Accepts max now f .admitted .enqueue { f with localChannel := ch } .idle
  | full : f.localChannel.trySend ⟨now⟩ = none →
      Accepts max now f .admitted .enqueue { f with active := f.active - 1 } .dropping
  | dropped : Accepts max now f .dropping .drop f .idle
  | left : Accepts max now f .idle .leave f .returned

theorem acceptLocalConn_sound {max : Int} {now : Nat} {done : Bool} {f f' : Front size} {pc pc' : AcceptPc}
    {e : AcceptEvent} (hmax : 0 < max) (h : acceptLocalConn max now done f pc e = some (f', pc')) :
    Accepts max now f pc e f' pc' := by
  have hlimit : ¬max ≤ 0 := Int.not_le.mpr hmax
  cases e with
  | accept =>
    simp only [acceptLocalConn, acquire, if_neg hlimit] at h
    split at h
    · simp only [Option.some.injEq, Prod.mk.injEq] at h
      obtain ⟨rfl, rfl⟩ := h
      by_cases hle : f.active + 1 ≤ max
      · simpa [hle] using Accepts.granted hle
      · simpa [hle] using Accepts.refused (Int.not_le.mp hle)
    · cases h
  | giveBack =>
    simp only [acceptLocalConn] at h
    split at h
    · cases h
      exact .gaveBack
    · cases h
  | enqueue =>
    simp only [acceptLocalConn, release, if_neg hlimit] at h
    split at h
    · split at h
      · cases h
        exact .queued ‹_›
      · cases h
        exact .full ‹_›
    · cases h
  | drop =>
    simp only [acceptLocalConn] at h
    split at h
    · cases h
      exact .dropped
    · cases h
  | leave =>
    simp only [acceptLocalConn] at h
    split at h
    · split at h
      · cases h
        exact .left
      · cases h
    · cases h

theorem Accepts.slots {max : Int} {now : Nat} {f f' : Front size} {pc pc' : AcceptPc} {e : AcceptEvent}
    (h : Accepts max now f pc e f' pc') :
    f'.active + f.localChannel.buf.length + pc.slot.toNat =
      f.active + f'.localChannel.buf.length + pc'.slot.toNat := by
  cases h with
  | queued hsend =>
    simp [AcceptPc.slot, (Chan.trySend_eq_some hsend).2]
    omega
  | granted | refused | gaveBack | full | dropped | left => simp [AcceptPc.slot] <;> omega

theorem Accepts.active_le {max n : Int} {now : Nat} {f f' : Front size} {pc pc' : AcceptPc} {e : AcceptEvent}
    (h : Accepts max now f pc e f' pc') (hn : 0 ≤ n)
    (hle : f.active ≤ max + n + (decide (pc = .refusing)).toNat) :
    f'.active ≤ max + n + (decide (pc' = .refusing)).toNat := by
  cases h with
  | granted hroom =>
    simp only [reduceCtorEq, decide_false, Bool.toNat_false]
    omega
  | refused | gaveBack | queued | full | dropped | left =>
    simp at hle ⊢
    omega

theorem Accepts.localChannel {max : Int} {now : Nat} {f f' : Front size} {pc pc' : AcceptPc} {e : AcceptEvent}
    (h : Accepts max now f pc e f' pc') (he : e ≠ .enqueue) : f'.localChannel = f.localChannel := by
  cases h with
  | queued | full => exact absurd rfl he
  | granted | refused | gaveBack | dropped | left => rfl

end ArangeTun.Server
