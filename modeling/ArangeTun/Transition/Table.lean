import Mathlib

/-!
# Tables

The parties of a component (goroutines, connections, runs) are kept in a list, and a party is known by
its index. Parties are added at the end and replaced in place, so an index stays valid.
-/

namespace Transition

open List

variable {α : Type*} {l : List α} {i j : Nat} {a b x : α} {P : Nat → α → Prop}

theorem getElem?_set_self (h : l[i]? = some a) : (l.set i b)[i]? = some b := by
  obtain ⟨hi, _⟩ := List.getElem?_eq_some_iff.mp h
  simp [hi]

theorem getElem?_set_ne (h : i ≠ j) : (l.set i b)[j]? = l[j]? := List.getElem?_set_ne h

theorem getElem?_set_cases (h : (l.set i b)[j]? = some x) :
    (i = j ∧ x = b) ∨ (i ≠ j ∧ l[j]? = some x) := by
  rw [getElem?_set] at h
  split at h
  · rename_i hij
    split at h
    · cases h
      exact Or.inl ⟨hij, rfl⟩
    · cases h
  · rename_i hij
    exact Or.inr ⟨hij, h⟩

theorem forall_set (h : ∀ j x, l[j]? = some x → P j x) (hb : P i b) :
    ∀ j x, (l.set i b)[j]? = some x → P j x := by
  intro j x hx
  rcases getElem?_set_cases hx with ⟨rfl, rfl⟩ | ⟨_, hx⟩
  · exact hb
  · exact h j x hx

theorem getElem?_concat_cases (h : (l ++ [b])[j]? = some x) : l[j]? = some x ∨ (j = l.length ∧ x = b) := by
  rcases Nat.lt_trichotomy j l.length with hj | rfl | hj
  · rw [getElem?_append_left hj] at h
    exact Or.inl h
  · rw [getElem?_concat_length] at h
    cases h
    exact Or.inr ⟨rfl, rfl⟩
  · rw [getElem?_eq_none (by simp; omega)] at h
    cases h

theorem forall_concat (h : ∀ j x, l[j]? = some x → P j x) (hb : P l.length b) :
    ∀ j x, (l ++ [b])[j]? = some x → P j x := by
  intro j x hx
  rcases getElem?_concat_cases hx with hx | ⟨rfl, rfl⟩
  · exact h j x hx
  · exact hb

theorem getElem?_concat_of_some (h : l[j]? = some x) : (l ++ [b])[j]? = some x := by
  obtain ⟨hj, _⟩ := List.getElem?_eq_some_iff.mp h
  rw [getElem?_append_left hj, h]

theorem exists_set {Q : α → Prop} (h : ∃ x, l[j]? = some x ∧ Q x) (ha : l[i]? = some a)
    (hab : Q a → Q b) : ∃ x, (l.set i b)[j]? = some x ∧ Q x := by
  obtain ⟨x, hx, hQ⟩ := h
  by_cases hij : i = j
  · subst hij
    rw [ha, Option.some.injEq] at hx
    subst hx
    exact ⟨b, getElem?_set_self ha, hab hQ⟩
  · exact ⟨x, by rw [getElem?_set_ne hij, hx], hQ⟩

theorem exists_concat {Q : α → Prop} (h : ∃ x, l[j]? = some x ∧ Q x) :
    ∃ x, (l ++ [b])[j]? = some x ∧ Q x := by
  obtain ⟨x, hx, hQ⟩ := h
  exact ⟨x, getElem?_concat_of_some hx, hQ⟩

theorem filter_set (q : α → Bool) (ha : l[i]? = some a) : ∃ u v,
    l.filter q = u ++ [a].filter q ++ v ∧ ∀ b, (l.set i b).filter q = u ++ [b].filter q ++ v := by
  obtain ⟨hi, rfl⟩ := List.getElem?_eq_some_iff.mp ha
  have hsplit : ∀ b, (l.set i b).filter q = (l.take i).filter q ++ [b].filter q ++ (l.drop (i + 1)).filter q := by
    intro b
    rw [set_eq_take_append_cons_drop, if_pos hi, ← filter_append, ← filter_append, append_assoc,
      singleton_append]
  exact ⟨_, _, (congrArg (List.filter q) (set_getElem_self hi).symm).trans (hsplit l[i]), hsplit⟩

theorem map_set_eq {β : Type*} {f : α → β} (ha : l[i]? = some a) (hab : f b = f a) : (l.set i b).map f = l.map f := by
  obtain ⟨hi, rfl⟩ := List.getElem?_eq_some_iff.mp ha
  rw [map_set, hab, ← getElem_map f (h := by simpa using hi), set_getElem_self]

theorem exists_mem_set {Q : α → Prop} (ha : l[i]? = some a) (hab : Q a → Q b) (h : ∃ x ∈ l, Q x) :
    ∃ x ∈ l.set i b, Q x := by
  obtain ⟨x, hx, hQ⟩ := h
  obtain ⟨j, hj⟩ := mem_iff_getElem?.mp hx
  obtain ⟨y, hy, hQ⟩ := exists_set ⟨x, hj, hQ⟩ ha hab
  exact ⟨y, mem_of_getElem? hy, hQ⟩

theorem exists_mem_set_iff {Q : α → Prop} (ha : l[i]? = some a) (hab : Q a ↔ Q b) :
    (∃ x ∈ l.set i b, Q x) ↔ ∃ x ∈ l, Q x := by
  refine ⟨?_, exists_mem_set ha hab.mp⟩
  rintro ⟨x, hx, hQ⟩
  rcases mem_or_eq_of_mem_set hx with hx | rfl
  · exact ⟨x, hx, hQ⟩
  · exact ⟨a, mem_of_getElem? ha, hab.mpr hQ⟩

/-! ## Counting parties -/

theorem countP_pos_of_getElem? {p : α → Bool} (h : l[i]? = some a) (ha : p a = true) : 0 < l.countP p :=
  countP_pos_iff.mpr ⟨a, mem_of_getElem? h, ha⟩

theorem countP_set {p : α → Bool} (h : l[i]? = some a) :
    (l.set i b).countP p + (p a).toNat = l.countP p + (p b).toNat := by
  have hpos := countP_pos_of_getElem? (p := p) h
  obtain ⟨hi, rfl⟩ := List.getElem?_eq_some_iff.mp h
  rw [List.countP_set hi]
  cases ha : p l[i] with
  | true =>
    have := hpos ha
    cases p b <;> simp <;> omega
  | false => cases p b <;> simp

theorem countP_concat {p : α → Bool} : (l ++ [b]).countP p = l.countP p + (p b).toNat := by
  rw [countP_append, countP_singleton]
  cases p b <;> rfl

theorem countP_eq_zero_of_forall {p : α → Bool} {P : α → Prop} (h : ∀ x ∈ l, P x)
    (hp : ∀ x, P x → p x = false) : l.countP p = 0 :=
  countP_eq_zero.mpr fun x hx => by simp [hp x (h x hx)]

theorem countP_split {p q r : α → Bool} (h : ∀ x, (p x).toNat = (q x).toNat + (r x).toNat) :
    l.countP p = l.countP q + l.countP r := by
  induction l with
  | nil => rfl
  | cons x l ih =>
    have hx := h x
    rw [← singleton_append, countP_append, countP_append, countP_append, ih]
    simp only [countP_singleton]
    revert hx
    cases p x <;> cases q x <;> cases r x <;> simp <;> omega

theorem sum_map_set {f : α → Nat} (h : l[i]? = some a) :
    ((l.set i b).map f).sum + f a = (l.map f).sum + f b := by
  induction l generalizing i with
  | nil => simp at h
  | cons x l ih =>
    cases i with
    | zero =>
      simp only [getElem?_cons_zero, Option.some.injEq] at h
      subst h
      simp only [set_cons_zero, map_cons, sum_cons]
      omega
    | succ i =>
      have := ih (getElem?_cons_succ ▸ h)
      simp only [set_cons_succ, map_cons, sum_cons]
      omega

end Transition
