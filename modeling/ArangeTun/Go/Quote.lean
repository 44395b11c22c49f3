import ArangeTun.Go.Str

/-!
# Quoted strings

`strconv.Quote`, which is the verb `%q` of `fmt`. A string is read as UTF-8. Which code points beyond ASCII are
printable is a table of the standard library, here any predicate.
-/

namespace Go

open List

/-! ## UTF-8 -/

def encodeRune (c : Char) : Str := String.utf8EncodeChar c

/-- The code point at the start of a string. -/
def decodeRune (s : Str) : Option Char := s.toByteArray.utf8DecodeChar? 0

variable {s t : Str} {c : Char}

theorem decodeRune_encodeRune (c : Char) (s : Str) : decodeRune (encodeRune c ++ s) = some c := by
  rw [decodeRune, encodeRune, toByteArray_append]
  exact ByteArray.utf8DecodeChar?_utf8EncodeChar_append

theorem exists_of_decodeRune (h : decodeRune s = some c) : ∃ t, s = encodeRune c ++ t := by
  obtain ⟨b, hb⟩ := ByteArray.exists_of_utf8DecodeChar?_eq_some h
  refine ⟨b.data.toList, ?_⟩
  rw [← toByteArray_inj, hb, toByteArray_append]
  congr 1
  exact ByteArray.ext (by simp [data_toByteArray])

theorem encodeRune_ne_nil (c : Char) : encodeRune c ≠ [] := String.utf8EncodeChar_ne_nil

theorem length_encodeRune (c : Char) : (encodeRune c).length = c.utf8Size := String.length_utf8EncodeChar c

theorem encodeRune_ascii (h : c.toNat < 0x80) : encodeRune c = [UInt8.ofNat c.toNat] :=
  if_pos (Nat.le_of_lt_succ h)

theorem encodeRune_started (c : Char) :
    ∃ a u, encodeRune c = a :: u ∧ (a < 0x80 ∨ 0xc0 ≤ a) ∧ ∀ b ∈ u, 0x80 ≤ b ∧ b < 0xc0 := by
  have hfirst : ∀ n, n < 128 ∨ 192 ≤ n → n < 256 → UInt8.ofNat n < 0x80 ∨ 0xc0 ≤ UInt8.ofNat n := by
    intro n hn h256
    rw [UInt8.lt_iff_toNat_lt, UInt8.le_iff_toNat_le, UInt8.toNat_ofNat_of_lt' h256]
    exact hn
  have hnext : ∀ n, 128 ≤ n → n < 192 → 0x80 ≤ UInt8.ofNat n ∧ UInt8.ofNat n < 0xc0 := by
    intro n h1 h2
    rw [UInt8.lt_iff_toNat_lt, UInt8.le_iff_toNat_le, UInt8.toNat_ofNat_of_lt' (Nat.lt_trans h2 (by decide))]
    exact ⟨h1, h2⟩
  unfold encodeRune String.utf8EncodeChar
  dsimp only
  split
  · exact ⟨_, _, rfl, hfirst _ (by omega) (by omega), by simp⟩
  · split
    · refine ⟨_, _, rfl, hfirst _ (by omega) (by omega), ?_⟩
      simp only [mem_cons, not_mem_nil, or_false]
      rintro b rfl
      exact hnext _ (by omega) (by omega)
    · split
      · refine ⟨_, _, rfl, hfirst _ (by omega) (by omega), ?_⟩
        simp only [mem_cons, not_mem_nil, or_false]
        rintro b (rfl | rfl) <;> exact hnext _ (by omega) (by omega)
      · refine ⟨_, _, rfl, hfirst _ (by omega) (by omega), ?_⟩
        simp only [mem_cons, not_mem_nil, or_false]
        rintro b (rfl | rfl | rfl) <;> exact hnext _ (by omega) (by omega)

theorem ge_of_mem_encodeRune {b : UInt8} (hc : 0x80 ≤ c.toNat) (hb : b ∈ encodeRune c) : 0x80 ≤ b := by
  have hv : ¬ c.val.toNat ≤ 127 := Nat.not_le.mpr hc
  unfold encodeRune String.utf8EncodeChar at hb
  simp only [if_neg hv] at hb
  rw [UInt8.le_iff_toNat_le]
  have hbyte : ∀ n, 128 ≤ n → n < 256 → UInt8.toNat 128 ≤ (UInt8.ofNat n).toNat := by
    intro n h1 h2
    rwa [UInt8.toNat_ofNat_of_lt' h2]
  split at hb
  · simp only [mem_cons, not_mem_nil, or_false] at hb
    obtain rfl | rfl := hb <;> exact hbyte _ (by omega) (by omega)
  · split at hb
    · simp only [mem_cons, not_mem_nil, or_false] at hb
      obtain rfl | rfl | rfl := hb <;> exact hbyte _ (by omega) (by omega)
    · simp only [mem_cons, not_mem_nil, or_false] at hb
      obtain rfl | rfl | rfl | rfl := hb <;> exact hbyte _ (by omega) (by omega)

theorem rune_induction {P : Str → Prop} (nil : P []) (rune : ∀ c s, P s → P (encodeRune c ++ s))
    (invalid : ∀ b s, decodeRune (b :: s) = none → P (b :: s)) (s : Str) : P s := by
  induction hn : s.length using Nat.strong_induction_on generalizing s with
  | _ n ih =>
    cases s with
    | nil => exact nil
    | cons b s =>
      cases hd : decodeRune (b :: s) with
      | none => exact invalid b s hd
      | some c =>
        obtain ⟨t, ht⟩ := exists_of_decodeRune hd
        rw [ht]
        refine rune c t (ih t.length ?_ t rfl)
        have hpos := length_pos_iff.mpr (encodeRune_ne_nil c)
        rw [← hn, ht, length_append]
        omega

/-! ## Quoting -/

def lowerHex (n : Nat) : UInt8 := UInt8.ofNat (if n < 10 then 48 + n else 87 + n)

def hex : Nat → Nat → Str
  | 0, _ => []
  | width + 1, n => lowerHex (n / 16 ^ width % 16) :: hex width n

section

variable (isPrint : Char → Bool)

def printable (c : Char) : Bool := if c.toNat < 0x80 then decide (0x20 ≤ c.toNat ∧ c.toNat < 0x7f) else isPrint c

def escapeRune (c : Char) : Str :=
  if c = '"' then lit "\\\""
  else if c = '\\' then lit "\\\\"
  else if printable isPrint c then encodeRune c
  else if c.toNat = 0x07 then lit "\\a"
  else if c.toNat = 0x08 then lit "\\b"
  else if c.toNat = 0x0c then lit "\\f"
  else if c.toNat = 0x0a then lit "\\n"
  else if c.toNat = 0x0d then lit "\\r"
  else if c.toNat = 0x09 then lit "\\t"
  else if c.toNat = 0x0b then lit "\\v"
  else if c.toNat < 0x20 ∨ c.toNat = 0x7f then lit "\\x" ++ hex 2 c.toNat
  else if c.toNat < 0x10000 then lit "\\u" ++ hex 4 c.toNat
  else lit "\\U" ++ hex 8 c.toNat

/-- The first argument is the number of bytes that are still to be passed over, since they belong to a code point that
has been written. -/
def escape : Nat → Str → Str
  | _, [] => []
  | skip + 1, _ :: s => escape skip s
  | 0, b :: s =>
    match decodeRune (b :: s) with
    | some c => escapeRune isPrint c ++ escape (c.utf8Size - 1) s
    | none => lit "\\x" ++ hex 2 b.toNat ++ escape 0 s

def quote (s : Str) : Str := byte '"' :: escape isPrint 0 s ++ [byte '"']

variable {isPrint}

theorem escape_skip : ∀ (u s : Str), escape isPrint u.length (u ++ s) = escape isPrint 0 s
  | [], _ => rfl
  | _ :: u, s => escape_skip u s

@[simp] theorem escape_rune (c : Char) (s : Str) :
    escape isPrint 0 (encodeRune c ++ s) = escapeRune isPrint c ++ escape isPrint 0 s := by
  have hd := decodeRune_encodeRune c s
  have hlen := length_encodeRune c
  cases hc : encodeRune c with
  | nil => exact absurd hc (encodeRune_ne_nil c)
  | cons b u =>
    rw [hc] at hd hlen
    rw [cons_append, escape, ← cons_append, hd]
    have : c.utf8Size - 1 = u.length := by rw [← hlen, length_cons, Nat.add_sub_cancel]
    dsimp only
    rw [this, escape_skip]

theorem escape_invalid {b : UInt8} (h : decodeRune (b :: s) = none) :
    escape isPrint 0 (b :: s) = lit "\\x" ++ hex 2 b.toNat ++ escape isPrint 0 s := by
  rw [escape, h]

end

/-! ## What other readers of quoted strings know as well -/

def Plain (c : Char) : Prop :=
  c.toNat ∈ [0x08, 0x09, 0x0a, 0x0c, 0x0d] ∨ (0x20 ≤ c.toNat ∧ c.toNat ≠ 0x7f)

instance (c : Char) : Decidable (Plain c) := inferInstanceAs (Decidable (_ ∨ _))

def Quotable (s : Str) : Prop := ∃ cs : List Char, s = cs.flatMap encodeRune ∧ ∀ c ∈ cs, Plain c

theorem quotable_nil : Quotable [] := ⟨[], rfl, by simp⟩

theorem Quotable.append (hs : Quotable s) (ht : Quotable t) : Quotable (s ++ t) := by
  obtain ⟨cs, rfl, hcs⟩ := hs
  obtain ⟨ds, rfl, hds⟩ := ht
  exact ⟨cs ++ ds, by simp, by simpa [or_imp, forall_and] using ⟨hcs, hds⟩⟩

theorem quotable_rune : Quotable (encodeRune c ++ s) ↔ Plain c ∧ Quotable s := by
  constructor
  · rintro ⟨cs, hcs, hplain⟩
    cases cs with
    | nil => exact absurd (append_eq_nil_iff.mp hcs).1 (encodeRune_ne_nil c)
    | cons d ds =>
      rw [flatMap_cons] at hcs
      have hd := decodeRune_encodeRune c s
      rw [hcs, decodeRune_encodeRune, Option.some.injEq] at hd
      subst hd
      exact ⟨hplain d (by simp), ds, append_cancel_left hcs, fun e he => hplain e (by simp [he])⟩
  · rintro ⟨hc, hs⟩
    exact .append ⟨[c], by simp, by simpa using hc⟩ hs

theorem quotable_append_rune : Quotable (s ++ (encodeRune c ++ t)) ↔ Quotable s ∧ Plain c ∧ Quotable t := by
  constructor
  · rintro ⟨cs, hcs, hplain⟩
    induction cs generalizing s with
    | nil => exact absurd hcs (by simp [encodeRune_ne_nil])
    | cons d ds ih =>
      rw [forall_mem_cons] at hplain
      rw [flatMap_cons] at hcs
      obtain ⟨z, hz, hrest⟩ | ⟨z, rfl, hrest⟩ := append_eq_append_iff.mp hcs
      · cases s with
        | nil =>
          have hwhole : Quotable (encodeRune c ++ t) := by
            refine ⟨d :: ds, ?_, forall_mem_cons.mpr hplain⟩
            rw [← nil_append (encodeRune c ++ t), hcs, flatMap_cons]
          exact ⟨quotable_nil, quotable_rune.mp hwhole⟩
        | cons a s =>
          cases z with
          | nil =>
            rw [append_nil] at hz
            rw [← hz, ← append_nil (encodeRune d), quotable_rune]
            exact ⟨⟨hplain.1, quotable_nil⟩, quotable_rune.mp ⟨ds, hrest, hplain.2⟩⟩
          | cons b z =>
            obtain ⟨a', u, hu, -, htail⟩ := encodeRune_started d
            obtain ⟨b', v, hv, hhead, -⟩ := encodeRune_started c
            rw [hu] at hz
            rw [hv] at hrest
            obtain rfl : b' = b := (cons_eq_cons.mp hrest).1
            obtain ⟨h1, h2⟩ := htail b' (by rw [(cons_eq_cons.mp hz).2]; simp)
            obtain hlow | hhigh := hhead
            · exact absurd (UInt8.lt_of_lt_of_le hlow h1) (UInt8.lt_irrefl _)
            · exact absurd (UInt8.lt_of_lt_of_le h2 hhigh) (UInt8.lt_irrefl _)
      · obtain ⟨hs, ht⟩ := ih hrest.symm hplain.2
        exact ⟨quotable_rune.mpr ⟨hplain.1, hs⟩, ht⟩
  · rintro ⟨hs, ht⟩
    exact hs.append (quotable_rune.mpr ht)

theorem not_quotable_of_invalid {b : UInt8} (h : decodeRune (b :: s) = none) : ¬ Quotable (b :: s) := by
  rintro ⟨cs, hcs, -⟩
  cases cs with
  | nil => cases hcs
  | cons c cs =>
    rw [hcs, flatMap_cons, decodeRune_encodeRune] at h
    cases h

/-! ## Around ASCII -/

def Graphic (b : UInt8) : Prop := 0x20 ≤ b ∧ b < 0x7f

instance (b : UInt8) : Decidable (Graphic b) := inferInstanceAs (Decidable (_ ∧ _))

section

variable {b : UInt8}

theorem exists_rune_of_graphic (hb : Graphic b) : ∃ c, encodeRune c = [b] ∧ Plain c := by
  obtain ⟨hlo, hhi⟩ := hb
  rw [UInt8.le_iff_toNat_le] at hlo
  rw [UInt8.lt_iff_toNat_lt] at hhi
  have htoNat : (Char.ofUInt8 b).toNat = b.toNat := UInt8.toNat_toUInt32 b
  refine ⟨Char.ofUInt8 b, ?_, .inr ?_⟩
  · rw [encodeRune_ascii (by rw [htoNat]; exact Nat.lt_trans hhi (by decide)), htoNat, UInt8.ofNat_toNat]
  · rw [htoNat]
    exact ⟨hlo, Nat.ne_of_lt hhi⟩

theorem quotable_cons (hb : Graphic b) : Quotable (b :: s) ↔ Quotable s := by
  obtain ⟨c, hc, hplain⟩ := exists_rune_of_graphic hb
  rw [← singleton_append, ← hc, quotable_rune]
  exact and_iff_right hplain

theorem quotable_of_graphic (h : ∀ b ∈ s, Graphic b) : Quotable s := by
  induction s with
  | nil => exact quotable_nil
  | cons b s ih => exact (quotable_cons (h b mem_cons_self)).mpr (ih fun b' hb' => h b' (mem_cons_of_mem b hb'))

theorem quotable_append_cons (hb : Graphic b) : Quotable (s ++ b :: t) ↔ Quotable s ∧ Quotable t := by
  obtain ⟨c, hc, hplain⟩ := exists_rune_of_graphic hb
  rw [← singleton_append, ← hc, quotable_append_rune]
  simp [hplain]

theorem quotable_append_graphic (h : ∀ b ∈ t, Graphic b) : Quotable (s ++ t) ↔ Quotable s := by
  cases t with
  | nil => rw [append_nil]
  | cons b t =>
    rw [forall_mem_cons] at h
    rw [quotable_append_cons h.1]
    exact and_iff_left (quotable_of_graphic h.2)

theorem quotable_graphic_append (h : ∀ b ∈ s, Graphic b) : Quotable (s ++ t) ↔ Quotable t := by
  induction s with
  | nil => rfl
  | cons b s ih =>
    rw [forall_mem_cons] at h
    rw [cons_append, quotable_cons h.1, ih h.2]

end

end Go
