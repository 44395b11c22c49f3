import ArangeTun.Go.Lemmas.HostPort
import ArangeTun.Go.Lemmas.Trim
import ArangeTun.Go.Quote

/-!
# Strings that can be quoted, and their parts
-/

namespace Go

variable {s t l r h p : Str} {b : UInt8}

theorem graphic_of_numeral (hb : Numeral b) : Graphic b := by
  obtain ⟨hlo, hhi⟩ | rfl | rfl := hb
  · rw [UInt8.le_iff_toNat_le] at hlo hhi
    exact ⟨UInt8.le_iff_toNat_le.mpr (Nat.le_trans (by decide) hlo),
      UInt8.lt_iff_toNat_lt.mpr (Nat.lt_of_le_of_lt hhi (by decide))⟩
  · decide
  · decide

/-! ## Trimming -/

def spaceRunes : List Char :=
  [0x09, 0x0a, 0x0b, 0x0c, 0x0d, 0x20, 0x85, 0xa0, 0x1680, 0x2000, 0x2001, 0x2002, 0x2003, 0x2004, 0x2005, 0x2006,
    0x2007, 0x2008, 0x2009, 0x200a, 0x2028, 0x2029, 0x202f, 0x205f, 0x3000].map Char.ofNat

theorem spaceCodes_eq : spaceCodes = spaceRunes.map encodeRune := by decide +kernel

theorem Coded.quotable_left (hl : Coded spaceCodes l) (hq : Quotable (l ++ s)) : Quotable s := by
  induction hl with
  | nil => exact hq
  | cons hw _ ih =>
    rw [spaceCodes_eq] at hw
    obtain ⟨c, -, rfl⟩ := List.mem_map.mp hw
    rw [List.append_assoc, quotable_rune] at hq
    exact ih hq.2

theorem Coded.quotable_right (hr : Coded spaceCodes r) (hq : Quotable (s ++ r)) : Quotable s := by
  cases hr with
  | nil => rwa [List.append_nil] at hq
  | cons hw _ =>
    rw [spaceCodes_eq] at hw
    obtain ⟨c, -, rfl⟩ := List.mem_map.mp hw
    exact (quotable_append_rune.mp hq).1

theorem Quotable.trimSpace (hs : Quotable s) : Quotable (trimSpace s) := by
  obtain ⟨l, r, hl, hr, he⟩ := trimSpace_split s
  rw [he] at hs
  exact hl.quotable_left (hr.quotable_right hs)

theorem quotable_joinHostPort (hp : Quotable p) : Quotable (joinHostPort h p) ↔ Quotable h := by
  have hbracketed : lit "[" ++ h ++ lit "]:" ++ p = byte '[' :: (h ++ byte ']' :: byte ':' :: p) := by
    simp [lit, byte]
  have hplain : h ++ lit ":" ++ p = h ++ byte ':' :: p := by
    simp [lit, byte]
  unfold joinHostPort
  split
  · rw [hbracketed, quotable_cons (by decide), quotable_append_cons (by decide), quotable_cons (by decide)]
    exact and_iff_left hp
  · rw [hplain, quotable_append_cons (by decide)]
    exact and_iff_left hp

theorem quotable_splitHostPort (hs : splitHostPort s = some (h, p)) : Quotable s ↔ Quotable h ∧ Quotable p := by
  obtain ⟨-, -, -, -, -, rfl | ⟨-, rfl⟩⟩ := splitHostPort_eq_some hs
  · rw [quotable_cons (by decide), quotable_append_cons (by decide), quotable_cons (by decide)]
  · exact quotable_append_cons (by decide)

end Go
