import ArangeTun.Go.Binary

/-!
# The internet checksum

`onesComplement` and `l4Checksum` of internal/utils/network/spoofpacket.go, and that a segment which carries the
checksum of itself is one that a receiver accepts.
-/

namespace ArangeTun.Packet

open Go

abbrev IPv4 := Vector UInt8 4

/-- `ipv4.HeaderLen` -/
def ipv4HeaderLen : Nat := 20

open List

def words : Str → List Nat
  | [] => []
  | [a] => [256 * a.toNat]
  | a :: b :: rest => (256 * a.toNat + b.toNat) :: words rest

def wordSum (parts : List Str) : Nat := (parts.flatMap words).foldl (fun sum w => (sum + w) % 2 ^ 32) 0

def foldCarries : Nat → Nat → Nat
  | 0, sum => sum
  | turns + 1, sum => if sum / 65536 ≠ 0 then foldCarries turns (sum % 65536 + sum / 65536) else sum

def onesComplement (parts : List Str) : UInt16 := UInt16.ofNat (65535 - foldCarries 2 (wordSum parts) % 65536)

def pseudoHeader (src dst : IPv4) (proto : UInt8) (segment : Str) : Str :=
  src.toList ++ dst.toList ++ [0, proto] ++ putUint16 (UInt16.ofNat segment.length)

def l4Checksum (src dst : IPv4) (proto : UInt8) (segment : Str) : UInt16 :=
  onesComplement [pseudoHeader src dst proto segment, segment]

/-! ## Ones-complement sums -/

/-- Ones-complement addition of 16-bit words: the carry out of the top comes in at the bottom. -/
def onesAdd (a b : Nat) : Nat := if a + b < 65536 then a + b else a + b - 65535

def onesSum (b : Str) : Nat := (words b).foldl onesAdd 0

def NoOverflow (parts : List Str) : Prop := ∀ n, ((parts.flatMap words).take n).sum < 2 ^ 32

def carried (sum : Nat) : Nat := if sum = 0 then 0 else (sum - 1) % 65535 + 1

theorem onesAdd_carried (sum : Nat) {w : Nat} (hw : w < 65536) : onesAdd (carried sum) w = carried (sum + w) := by
  unfold onesAdd carried
  split <;> split <;> split <;> omega

theorem foldCarries_eq {sum : Nat} (h : sum < 2 ^ 32) : foldCarries 2 sum = carried sum := by
  simp only [foldCarries, carried]
  split
  · split <;> split <;> omega
  · split <;> omega

theorem foldl_onesAdd (ws : List Nat) (sum : Nat) (h : ∀ w ∈ ws, w < 65536) :
    ws.foldl onesAdd (carried sum) = carried (sum + ws.sum) := by
  induction ws generalizing sum with
  | nil => rfl
  | cons w ws ih =>
    rw [forall_mem_cons] at h
    rw [foldl_cons, onesAdd_carried sum h.1, ih (sum + w) h.2, sum_cons, Nat.add_assoc]

/-! ## The sum of words -/

theorem words_lt (b : Str) : ∀ w ∈ words b, w < 65536 := by
  induction b using words.induct with
  | case1 => simp [words]
  | case2 a =>
    have := a.toNat_lt
    simp only [words, mem_singleton, forall_eq]
    omega
  | case3 a b rest ih =>
    have := a.toNat_lt
    have := b.toNat_lt
    rw [words, forall_mem_cons]
    exact ⟨by omega, ih⟩

theorem onesSum_eq (b : Str) : onesSum b = carried (words b).sum := by
  have h := foldl_onesAdd (words b) 0 (words_lt b)
  rw [Nat.zero_add] at h
  exact h

theorem foldl_add_of_lt (ws : List Nat) (s : Nat) (h : s + ws.sum < 2 ^ 32) :
    ws.foldl (fun sum w => (sum + w) % 2 ^ 32) s = s + ws.sum := by
  induction ws generalizing s with
  | nil => simp
  | cons w ws ih =>
    rw [sum_cons] at h
    rw [foldl_cons, Nat.mod_eq_of_lt (by omega), ih _ (by omega), sum_cons]
    omega

theorem sum_words_le (b : Str) : 2 * (words b).sum ≤ 65535 * (b.length + 1) := by
  induction b using words.induct with
  | case1 => simp [words]
  | case2 a =>
    have := a.toNat_lt
    simp only [words, sum_cons, sum_nil, length_singleton]
    omega
  | case3 a b rest ih =>
    have := a.toNat_lt
    have := b.toNat_lt
    simp only [words, sum_cons, length_cons]
    omega

theorem noOverflow_of_length {pseudo segment : Str} (h : pseudo.length + segment.length ≤ 65600) :
    NoOverflow [pseudo, segment] := by
  intro n
  have hp := sum_words_le pseudo
  have hs := sum_words_le segment
  have htake := take_append_drop n ([pseudo, segment].flatMap words)
  have hsum := congrArg List.sum htake
  simp only [sum_append, flatMap_cons, flatMap_nil, append_nil] at hsum ⊢
  omega

theorem NoOverflow.wordSum_eq {parts : List Str} (h : NoOverflow parts) :
    wordSum parts = (parts.flatMap words).sum := by
  have hall := h (parts.flatMap words).length
  rw [take_length] at hall
  rw [wordSum, foldl_add_of_lt _ _ (by rwa [Nat.zero_add]), Nat.zero_add]

theorem words_append {a : Str} (b : Str) (h : a.length % 2 = 0) : words (a ++ b) = words a ++ words b := by
  induction a using words.induct with
  | case1 => rfl
  | case2 x => simp at h
  | case3 x y rest ih =>
    simp only [length_cons] at h
    simp only [cons_append, words, cons_append, ih (by omega)]

theorem sum_words_putUint16 (v : UInt16) : (words (putUint16 v)).sum = v.toNat := by
  have hv := v.toNat_lt
  simp only [putUint16, words, UInt8.toNat_ofNat', sum_cons, sum_nil]
  omega

/-! ## Messages that carry their checksum -/

section

variable {pseudo a b : Str} {c : UInt16}

theorem sum_words_field (v : UInt16) (ha : a.length % 2 = 0) :
    ([pseudo, a ++ putUint16 v ++ b].flatMap words).sum =
      (words pseudo).sum + (words a).sum + (words b).sum + v.toNat := by
  rw [append_assoc]
  simp only [flatMap_cons, flatMap_nil, append_nil, sum_append, words_append _ ha,
    words_append (a := putUint16 v) b (by simp), sum_words_putUint16]
  omega

theorem onesComplement_toNat {parts : List Str} (h : NoOverflow parts) :
    (onesComplement parts).toNat = 65535 - carried (parts.flatMap words).sum := by
  have hall := h (parts.flatMap words).length
  rw [take_length] at hall
  rw [onesComplement, h.wordSum_eq, foldCarries_eq hall, UInt16.toNat_ofNat', carried]
  split <;> omega

/-- `c` is the checksum that the builders put into the field, `0xffff` possibly for zero. -/
def IsChecksum (pseudo a b : Str) (c : UInt16) : Prop :=
  c = onesComplement [pseudo, a ++ putUint16 0 ++ b] ∨
    (onesComplement [pseudo, a ++ putUint16 0 ++ b] = 0 ∧ c = 0xffff)

theorem IsChecksum.carried_eq (hc : IsChecksum pseudo a b c) (ha : a.length % 2 = 0)
    (hlen : pseudo.length + (a.length + (2 + b.length)) ≤ 65600) :
    carried ([pseudo, a ++ putUint16 c ++ b].flatMap words).sum = 65535 := by
  have hval := onesComplement_toNat (@noOverflow_of_length pseudo (a ++ putUint16 0 ++ b) (by simpa using hlen))
  have hz : (0 : UInt16).toNat = 0 := rfl
  rw [sum_words_field 0 ha, hz, Nat.add_zero] at hval
  rw [sum_words_field c ha]
  generalize (words pseudo).sum + (words a).sum + (words b).sum = sum at *
  have hone : (0xffff : UInt16).toNat = 65535 := rfl
  unfold carried at *
  rcases hc with rfl | ⟨hzero, rfl⟩
  · split at hval <;> split <;> omega
  · rw [hzero, hz] at hval
    split at hval <;> split <;> omega

theorem IsChecksum.onesSum_eq (hc : IsChecksum pseudo a b c) (ha : a.length % 2 = 0) (hp : pseudo.length % 2 = 0)
    (hlen : pseudo.length + (a.length + (2 + b.length)) ≤ 65600) :
    onesSum (pseudo ++ (a ++ putUint16 c ++ b)) = 0xffff := by
  have h := hc.carried_eq ha hlen
  simp only [flatMap_cons, flatMap_nil, append_nil] at h
  rw [Packet.onesSum_eq, words_append _ hp]
  exact h

theorem IsChecksum.onesComplement_eq_zero (hc : IsChecksum pseudo a b c) (ha : a.length % 2 = 0)
    (hlen : pseudo.length + (a.length + (2 + b.length)) ≤ 65600) :
    onesComplement [pseudo, a ++ putUint16 c ++ b] = 0 := by
  have hval := onesComplement_toNat (@noOverflow_of_length pseudo (a ++ putUint16 c ++ b) (by simpa using hlen))
  rw [hc.carried_eq ha hlen] at hval
  exact UInt16.toNat_inj.mp hval

end

end ArangeTun.Packet
