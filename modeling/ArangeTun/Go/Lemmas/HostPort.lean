import ArangeTun.Go.Lemmas.Decimal

/-!
# Host and port
-/

namespace Go

open List

variable {s h p : Str} {c : UInt8}

theorem lastIndex_eq_none (hc : c ∉ s) : lastIndex c s = none := by
  induction s with
  | nil => rfl
  | cons b s ih =>
    simp only [mem_cons, not_or] at hc
    rw [lastIndex, ih hc.2]
    exact if_neg (Ne.symm hc.1)

theorem not_mem_of_lastIndex (hs : lastIndex c s = none) : c ∉ s := by
  induction s with
  | nil => exact not_mem_nil
  | cons b s ih =>
    rw [lastIndex] at hs
    cases hlast : lastIndex c s with
    | some j => rw [hlast] at hs; cases hs
    | none =>
      rw [hlast] at hs
      dsimp only at hs
      split at hs
      · cases hs
      · rw [mem_cons, not_or]
        exact ⟨Ne.symm ‹_›, ih hlast⟩

theorem lastIndex_eq_some {i : Nat} (hi : lastIndex c s = some i) :
    s = s.take i ++ c :: s.drop (i + 1) ∧ c ∉ s.drop (i + 1) := by
  induction s generalizing i with
  | nil => cases hi
  | cons b s ih =>
    rw [lastIndex] at hi
    cases hlast : lastIndex c s with
    | some j =>
      rw [hlast] at hi
      obtain rfl : j + 1 = i := Option.some.inj hi
      obtain ⟨hs, hc⟩ := ih hlast
      exact ⟨congrArg (b :: ·) hs, hc⟩
    | none =>
      rw [hlast] at hi
      dsimp only at hi
      split at hi
      · obtain rfl : 0 = i := Option.some.inj hi
        subst b
        exact ⟨rfl, not_mem_of_lastIndex hlast⟩
      · cases hi

theorem splitHostPort_eq_none (hs : byte ':' ∉ s) : splitHostPort s = none := by
  rw [splitHostPort, lastIndex_eq_none hs]

theorem mem_of_splitHostPort (hs : splitHostPort s = some (h, p)) : byte ':' ∈ s := by
  by_contra hc
  rw [splitHostPort_eq_none hc] at hs
  cases hs

theorem idxOf?_cut {e : Nat} (he : s.idxOf? c = some e) : s = s.take e ++ c :: s.drop (e + 1) ∧ c ∉ s.take e := by
  obtain ⟨hlt, hat, hbefore⟩ := idxOf?_eq_some_iff.mp he
  constructor
  · rw [← hat, ← drop_eq_getElem_cons, take_append_drop]
  · intro hmem
    obtain ⟨j, hj, hjc⟩ := mem_take_iff_getElem.mp hmem
    exact hbefore j (Nat.lt_of_lt_of_le hj (Nat.min_le_left ..)) hjc

theorem splitHostPort_eq_some (hs : splitHostPort s = some (h, p)) :
    byte ':' ∉ p ∧ byte '[' ∉ h ∧ byte ']' ∉ h ∧ byte '[' ∉ p ∧ byte ']' ∉ p ∧
      (s = byte '[' :: (h ++ byte ']' :: byte ':' :: p) ∨ byte ':' ∉ h ∧ s = h ++ byte ':' :: p) := by
  unfold splitHostPort at hs
  cases hlast : lastIndex (byte ':') s with
  | none => rw [hlast] at hs; cases hs
  | some i =>
    obtain ⟨hcut, hport⟩ := lastIndex_eq_some hlast
    rw [hlast] at hs
    dsimp only at hs
    split at hs
    next hhead =>
      cases hidx : s.idxOf? (byte ']') with
      | none => rw [hidx] at hs; cases hs
      | some e =>
        rw [hidx] at hs
        dsimp only at hs
        split at hs
        · cases hs
        split at hs
        · cases hs
        split at hs
        · cases hs
        next hlast hopen hclose =>
        obtain rfl : e + 1 = i := not_not.mp hlast
        obtain ⟨rfl, rfl⟩ := Prod.mk.inj (Option.some.inj hs)
        obtain ⟨hcut', hhost⟩ := idxOf?_cut hidx
        cases e with
        | zero =>
          rw [hcut', take_zero, nil_append, head?_cons] at hhead
          exact absurd hhead (by decide)
        | succ e =>
          have hdrop : s.drop (e + 1 + 1) = byte ':' :: s.drop (e + 1 + 1 + 1) :=
            append_cancel_left ((take_append_drop _ s).trans hcut)
          rw [hdrop] at hcut' hclose
          cases s with
          | nil => cases hhead
          | cons b s =>
            obtain rfl : b = byte '[' := Option.some.inj hhead
            rw [take_succ_cons, mem_cons, not_or] at hhost
            rw [drop_succ_cons, drop_zero] at hopen
            rw [mem_cons, not_or] at hclose
            have hhost' : byte '[' ∉ s.take e := fun hm => hopen (mem_of_mem_take hm)
            have hport' : byte '[' ∉ (byte '[' :: s).drop (e + 1 + 1 + 1) :=
              fun hm => hopen (mem_of_mem_drop hm)
            exact ⟨hport, hhost', hhost.2, hport', hclose.2, .inl hcut'⟩
    next hhead =>
      split at hs
      · cases hs
      split at hs
      · cases hs
      split at hs
      · cases hs
      next hcolon hopen hclose =>
      obtain ⟨rfl, rfl⟩ := Prod.mk.inj (Option.some.inj hs)
      rw [hcut] at hopen hclose
      simp only [mem_append, mem_cons, not_or] at hopen hclose
      exact ⟨hport, hopen.1, hclose.1, hopen.2.2, hclose.2.2, .inr ⟨hcolon, hcut⟩⟩

theorem lastIndex_append (hc : c ∉ p) : lastIndex c (h ++ c :: p) = some h.length := by
  induction h with
  | nil =>
    rw [nil_append, lastIndex, lastIndex_eq_none hc]
    exact if_pos rfl
  | cons b h ih => rw [cons_append, lastIndex, ih, length_cons]

theorem splitHostPort_plain (hh : ∀ c ∈ h, c ≠ byte ':' ∧ c ≠ byte '[' ∧ c ≠ byte ']') (hp : ∀ c ∈ p, Numeral c) :
    splitHostPort (h ++ byte ':' :: p) = some (h, p) := by
  have hport {c : UInt8} (hc : ¬ Numeral c) : c ∉ p := fun hm => hc (hp c hm)
  have hopen : byte '[' ∉ h ++ byte ':' :: p := by
    rw [mem_append, mem_cons, not_or, not_or]
    exact ⟨fun hm => (hh _ hm).2.1 rfl, by decide, hport (by decide)⟩
  have hclose : byte ']' ∉ h ++ byte ':' :: p := by
    rw [mem_append, mem_cons, not_or, not_or]
    exact ⟨fun hm => (hh _ hm).2.2 rfl, by decide, hport (by decide)⟩
  have hhead : (h ++ byte ':' :: p).head? ≠ some (byte '[') := fun hd => hopen (mem_of_mem_head? hd)
  have hcolon : byte ':' ∉ h := fun hm => (hh _ hm).1 rfl
  simp only [splitHostPort, lastIndex_append (hport (by decide : ¬ Numeral (byte ':'))), if_neg hhead, if_neg hopen,
    if_neg hclose, take_left, if_neg hcolon]
  rw [← drop_drop, drop_left]
  rfl

theorem splitHostPort_colon (hp : ∀ c ∈ p, Numeral c) : splitHostPort (byte ':' :: p) = some ([], p) :=
  @splitHostPort_plain [] p nofun hp

theorem joinHostPort_ne_nil (h p : Str) : joinHostPort h p ≠ [] := by
  have hopen : lit "[" ≠ [] := by decide
  have hcolon : lit ":" ≠ [] := by decide
  unfold joinHostPort
  split
  · simp [hopen]
  · simp [hcolon]

end Go
