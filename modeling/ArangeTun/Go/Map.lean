import Mathlib

/-!
# Maps

A map of pointers is a function from its keys to the values, `none` where the key is absent.
-/

namespace Go

abbrev Map (κ ν : Type*) := κ → Option ν

namespace Map

variable {κ ν : Type*} [DecidableEq κ] {m : Map κ ν} {k k' : κ} {v w : ν}

def empty : Map κ ν := fun _ => none

def set (m : Map κ ν) (k : κ) (v : ν) : Map κ ν := Function.update m k (some v)

def delete (m : Map κ ν) (k : κ) : Map κ ν := Function.update m k none

def deleteIf [DecidableEq ν] (m : Map κ ν) (k : κ) (v : ν) : Map κ ν := if m k = some v then m.delete k else m

@[simp] theorem set_self : m.set k v k = some v := Function.update_self ..

theorem set_of_ne (h : k' ≠ k) : m.set k v k' = m k' := Function.update_of_ne h ..

@[simp] theorem delete_self : m.delete k k = none := Function.update_self ..

theorem delete_of_ne (h : k' ≠ k) : m.delete k k' = m k' := Function.update_of_ne h ..

theorem set_eq_some : m.set k v k' = some w ↔ (k' = k ∧ v = w) ∨ (k' ≠ k ∧ m k' = some w) := by
  by_cases h : k' = k
  · subst h
    simp
  · simp [h, set_of_ne h]

theorem delete_eq_some : m.delete k k' = some w ↔ k' ≠ k ∧ m k' = some w := by
  by_cases h : k' = k
  · subst h
    simp
  · simp [h, delete_of_ne h]

theorem deleteIf_eq_some [DecidableEq ν] :
    m.deleteIf k v k' = some w ↔ m k' = some w ∧ ¬(k' = k ∧ w = v) := by
  unfold deleteIf
  by_cases hm : m k = some v
  · rw [if_pos hm, delete_eq_some]
    constructor
    · rintro ⟨hne, hw⟩
      exact ⟨hw, fun h => hne h.1⟩
    · rintro ⟨hw, hnot⟩
      refine ⟨fun hk => hnot ⟨hk, ?_⟩, hw⟩
      subst hk
      rw [hm, Option.some.injEq] at hw
      exact hw.symm
  · rw [if_neg hm]
    constructor
    · intro hw
      refine ⟨hw, fun h => hm ?_⟩
      rw [← h.1, ← h.2]
      exact hw
    · exact And.left

end Map

end Go
