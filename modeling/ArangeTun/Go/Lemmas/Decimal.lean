import ArangeTun.Go.Str

/-!
# Decimal numbers

`strconv.Atoi` accepts what `strconv.Itoa` writes, and more: a sign, and zeros in front.
-/

namespace Go

open List Option

variable {s t : Str} {c : UInt8}

def Numeral (c : UInt8) : Prop := 48 ≤ c ∧ c ≤ 57 ∨ c = byte '-' ∨ c = byte '+'

instance : DecidablePred Numeral := fun c =>
  inferInstanceAs (Decidable (48 ≤ c ∧ c ≤ 57 ∨ c = byte '-' ∨ c = byte '+'))

theorem digits_append (n : Nat) (s t : Str) : digits n (s ++ t) = (digits n s).bind (digits · t) := by
  induction s generalizing n with
  | nil => rfl
  | cons c s ih =>
    simp only [cons_append, digits]
    split
    · exact ih _
    · rfl

theorem digits_mem {n m : Nat} (h : digits n s = some m) (hc : c ∈ s) : 48 ≤ c ∧ c ≤ 57 := by
  induction s generalizing n with
  | nil => simp at hc
  | cons d s ih =>
    simp only [digits] at h
    split at h
    · rename_i hd
      rcases mem_cons.mp hc with rfl | hc
      · exact hd
      · exact ih h hc
    · cases h

theorem parseInt_mem {n : Int} (h : parseInt s = some n) (hc : c ∈ s) : Numeral c := by
  cases s with
  | nil => simp at hc
  | cons d s =>
    simp only [parseInt] at h
    split at h
    · rename_i hd
      split at h
      · cases h
      · obtain ⟨m, hm, _⟩ := map_eq_some_iff.mp h
        rcases mem_cons.mp hc with rfl | hc
        · exact Or.inr (Or.inl hd)
        · exact Or.inl (digits_mem hm hc)
    · split at h
      · rename_i hd
        split at h
        · cases h
        · obtain ⟨m, hm, _⟩ := map_eq_some_iff.mp h
          rcases mem_cons.mp hc with rfl | hc
          · exact Or.inr (Or.inr hd)
          · exact Or.inl (digits_mem hm hc)
      · obtain ⟨m, hm, _⟩ := map_eq_some_iff.mp h
        exact Or.inl (digits_mem hm hc)

theorem atoi_eq_some {n : Int} :
    atoi s = some n ↔ parseInt s = some n ∧ -(2 ^ 63) ≤ n ∧ n < 2 ^ 63 := by
  simp [atoi, filter_eq_some_iff]

theorem atoi_mem {n : Int} (h : atoi s = some n) (hc : c ∈ s) : Numeral c :=
  parseInt_mem (atoi_eq_some.mp h).1 hc

theorem atoi_eq_none_of_mem (hc : c ∈ s) (hn : ¬ Numeral c) : atoi s = none := by
  cases h : atoi s with
  | none => rfl
  | some n => exact absurd (atoi_mem h hc) hn

/-! ## What `Itoa` writes -/

theorem decimal_of_lt {n : Nat} (h : n < 10) : decimal n = [UInt8.ofNat (48 + n)] := by
  unfold decimal
  by_cases h0 : n = 0
  · subst h0; rfl
  · rw [if_neg h0, Nat.digits_of_lt 10 n h0 h]; rfl

theorem decimal_of_ge {n : Nat} (h : 10 ≤ n) :
    decimal n = decimal (n / 10) ++ [UInt8.ofNat (48 + n % 10)] := by
  have h0 : n ≠ 0 := by omega
  have h1 : n / 10 ≠ 0 := by omega
  rw [decimal, decimal, if_neg h0, if_neg h1, Nat.digits_def' (by norm_num) (by omega)]
  simp

theorem toNat_digit {d : Nat} (h : d < 10) : (UInt8.ofNat (48 + d)).toNat = 48 + d := by
  rw [UInt8.toNat_ofNat_of_lt']
  have : UInt8.size = 256 := rfl
  omega

theorem digit_bounds {d : Nat} (h : d < 10) :
    48 ≤ UInt8.ofNat (48 + d) ∧ UInt8.ofNat (48 + d) ≤ 57 := by
  rw [UInt8.le_iff_toNat_le, UInt8.le_iff_toNat_le, toNat_digit h]
  have h48 : (48 : UInt8).toNat = 48 := rfl
  have h57 : (57 : UInt8).toNat = 57 := rfl
  omega

theorem digits_digit {n d : Nat} (h : d < 10) :
    digits n [UInt8.ofNat (48 + d)] = some (10 * n + d) := by
  simp only [digits, digit_bounds h, and_self, ↓reduceIte, toNat_digit h, Option.some.injEq]
  omega

theorem digits_decimal (n : Nat) : digits 0 (decimal n) = some n := by
  induction n using Nat.strong_induction_on with
  | _ n ih =>
    by_cases h : n < 10
    · rw [decimal_of_lt h, digits_digit h]; simp
    · rw [decimal_of_ge (by omega), digits_append, ih (n / 10) (by omega), bind_some,
        digits_digit (Nat.mod_lt _ (by norm_num))]
      congr 1; omega

theorem decimal_ne_nil (n : Nat) : decimal n ≠ [] := by
  by_cases h : n < 10
  · rw [decimal_of_lt h]; simp
  · rw [decimal_of_ge (by omega)]; simp

theorem decimal_mem {n : Nat} (hc : c ∈ decimal n) : 48 ≤ c ∧ c ≤ 57 :=
  digits_mem (digits_decimal n) hc

theorem itoa_mem {n : Int} (hc : c ∈ itoa n) : Numeral c := by
  cases n with
  | ofNat n => exact Or.inl (decimal_mem hc)
  | negSucc n =>
    rcases mem_cons.mp hc with rfl | hc
    · exact Or.inr (Or.inl rfl)
    · exact Or.inl (decimal_mem hc)

theorem parseInt_decimal (n : Nat) : parseInt (decimal n) = some (n : Int) := by
  have hmem : ∀ c ∈ decimal n, 48 ≤ c ∧ c ≤ 57 := fun c hc => decimal_mem hc
  cases hd : decimal n with
  | nil => exact absurd hd (decimal_ne_nil n)
  | cons c cs =>
    rw [hd] at hmem
    obtain ⟨hlo, hhi⟩ := hmem c (by simp)
    have hneg : c ≠ byte '-' := by rintro rfl; exact absurd hlo (by decide)
    have hpos : c ≠ byte '+' := by rintro rfl; exact absurd hlo (by decide)
    rw [parseInt, if_neg hneg, if_neg hpos, ← hd, digits_decimal]
    rfl

theorem parseInt_itoa (n : Int) : parseInt (itoa n) = some n := by
  cases n with
  | ofNat n => exact parseInt_decimal n
  | negSucc n =>
    rw [itoa, parseInt, if_pos rfl, if_neg (decimal_ne_nil _), digits_decimal]
    rfl

theorem atoi_itoa {n : Int} (hlo : -(2 ^ 63) ≤ n) (hhi : n < 2 ^ 63) : atoi (itoa n) = some n :=
  atoi_eq_some.mpr ⟨parseInt_itoa n, hlo, hhi⟩

theorem itoa_inj {n m : Int} (h : itoa n = itoa m) : n = m := by
  have := parseInt_itoa n
  rw [h, parseInt_itoa m] at this
  exact (Option.some.inj this).symm

end Go
