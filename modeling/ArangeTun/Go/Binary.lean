import ArangeTun.Go.Str

/-!
# Byte slices

Indexing, slicing and the fields of `encoding/binary`, in a slice of bytes that is read and in a
buffer that is written in place. An access out of range panics, which is `none`.
-/

namespace Go

open List Option

/-! ## Big-endian fields -/

def putUint16 (v : UInt16) : Str := [UInt8.ofNat (v.toNat / 256), UInt8.ofNat v.toNat]

def putUint32 (v : UInt32) : Str :=
  [UInt8.ofNat (v.toNat / 2 ^ 24), UInt8.ofNat (v.toNat / 2 ^ 16), UInt8.ofNat (v.toNat / 2 ^ 8),
   UInt8.ofNat v.toNat]

def be16 (b : Str) (i : Nat) : UInt16 := UInt16.ofNat (256 * (b.getD i 0).toNat + (b.getD (i + 1) 0).toNat)

def be32 (b : Str) (i : Nat) : UInt32 :=
  UInt32.ofNat (2 ^ 24 * (b.getD i 0).toNat + 2 ^ 16 * (b.getD (i + 1) 0).toNat +
    2 ^ 8 * (b.getD (i + 2) 0).toNat + (b.getD (i + 3) 0).toNat)

@[simp] theorem length_putUint16 (v : UInt16) : (putUint16 v).length = 2 := rfl

@[simp] theorem length_putUint32 (v : UInt32) : (putUint32 v).length = 4 := rfl

theorem toNat_be16 (b : Str) (i : Nat) :
    (be16 b i).toNat = 256 * (b.getD i 0).toNat + (b.getD (i + 1) 0).toNat := by
  have h₀ := (b.getD i 0).toNat_lt
  have h₁ := (b.getD (i + 1) 0).toNat_lt
  rw [be16, UInt16.toNat_ofNat']
  omega

@[simp] theorem be16_putUint16 (v : UInt16) (rest : Str) : be16 (putUint16 v ++ rest) 0 = v := by
  have hv := v.toNat_lt
  apply UInt16.toNat_inj.mp
  simp only [toNat_be16, putUint16, cons_append, getD_cons_zero, getD_cons_succ,
    UInt8.toNat_ofNat']
  omega

theorem putUint16_be16 {b : Str} (h : 2 ≤ b.length) : putUint16 (be16 b 0) = b.take 2 := by
  obtain ⟨x, y, b, rfl⟩ : ∃ x y b', b = x :: y :: b' := by
    match b, h with
    | x :: y :: b', _ => exact ⟨x, y, b', rfl⟩
  have hx := x.toNat_lt
  have hy := y.toNat_lt
  have hv := toNat_be16 (x :: y :: b) 0
  simp only [getD_cons_zero, getD_cons_succ, zero_add] at hv
  have hhigh : UInt8.ofNat ((be16 (x :: y :: b) 0).toNat / 256) = x := by
    rw [hv, show (256 * x.toNat + y.toNat) / 256 = x.toNat by omega, UInt8.ofNat_toNat]
  have hlow : UInt8.ofNat (be16 (x :: y :: b) 0).toNat = y := by
    apply UInt8.toNat_inj.mp
    rw [hv, UInt8.toNat_ofNat']
    omega
  simp only [putUint16, hhigh, hlow, take_succ_cons, take_zero]

@[simp] theorem be32_putUint32 (v : UInt32) (rest : Str) : be32 (putUint32 v ++ rest) 0 = v := by
  have hv := v.toNat_lt
  apply UInt32.toNat_inj.mp
  simp only [be32, putUint32, cons_append, getD_cons_zero, getD_cons_succ,
    UInt8.toNat_ofNat', UInt32.toNat_ofNat', zero_add]
  omega

def putUint32LE (v : UInt32) : Str :=
  [UInt8.ofNat v.toNat, UInt8.ofNat (v.toNat / 2 ^ 8), UInt8.ofNat (v.toNat / 2 ^ 16), UInt8.ofNat (v.toNat / 2 ^ 24)]

def le32 (b : Str) (i : Nat) : UInt32 :=
  UInt32.ofNat ((b.getD i 0).toNat + 2 ^ 8 * (b.getD (i + 1) 0).toNat + 2 ^ 16 * (b.getD (i + 2) 0).toNat +
    2 ^ 24 * (b.getD (i + 3) 0).toNat)

@[simp] theorem length_putUint32LE (v : UInt32) : (putUint32LE v).length = 4 := rfl

@[simp] theorem le32_putUint32LE (v : UInt32) (rest : Str) : le32 (putUint32LE v ++ rest) 0 = v := by
  have hv := v.toNat_lt
  apply UInt32.toNat_inj.mp
  simp only [le32, putUint32LE, cons_append, getD_cons_zero, getD_cons_succ,
    UInt8.toNat_ofNat', UInt32.toNat_ofNat', zero_add]
  omega

theorem getD_drop (b : Str) (n i : Nat) : (b.drop n).getD i 0 = b.getD (n + i) 0 := by
  simp only [getD_eq_getElem?_getD, getElem?_drop]

theorem getD_take {b : Str} {n i : Nat} (h : i < n) : (b.take n).getD i 0 = b.getD i 0 := by
  simp only [getD_eq_getElem?_getD, getElem?_take_of_lt h]

theorem be16_drop (b : Str) (n i : Nat) : be16 (b.drop n) i = be16 b (n + i) := by
  simp only [be16, getD_drop, Nat.add_assoc]

theorem be16_take {b : Str} {n i : Nat} (h : i + 2 ≤ n) : be16 (b.take n) i = be16 b i := by
  rw [be16, be16, getD_take (by omega), getD_take (by omega)]

theorem getD_append_left {a : Str} {i : Nat} (b : Str) (h : i < a.length) : (a ++ b).getD i 0 = a.getD i 0 := by
  rw [getD_eq_getElem?_getD, getElem?_append_left h, getD_eq_getElem?_getD]

theorem getD_append_length (a b : Str) (i : Nat) : (a ++ b).getD (a.length + i) 0 = b.getD i 0 := by
  rw [← getD_drop, drop_left]

theorem be16_append_length (a b : Str) (i : Nat) : be16 (a ++ b) (a.length + i) = be16 b i := by
  rw [← be16_drop, drop_left]

/-! ## Reading -/

def slice (b : Str) (lo hi : Nat) : Option Str :=
  if lo ≤ hi ∧ hi ≤ b.length then some ((b.take hi).drop lo) else none

def uint16At (b : Str) (i : Nat) : Option UInt16 := if i + 2 ≤ b.length then some (be16 b i) else none

def uint32At (b : Str) (i : Nat) : Option UInt32 := if i + 4 ≤ b.length then some (be32 b i) else none

section

variable {b : Str} {i lo hi : Nat}

theorem getElem?_of_lt (h : i < b.length) : b[i]? = some (b.getD i 0) := by
  rw [getD_eq_getElem?_getD, getElem?_eq_getElem h, getD_some]

theorem slice_of_le (h : lo ≤ hi) (hb : hi ≤ b.length) : slice b lo hi = some ((b.take hi).drop lo) :=
  if_pos ⟨h, hb⟩

theorem slice_to_end (h : lo ≤ b.length) : slice b lo b.length = some (b.drop lo) := by
  rw [slice_of_le h le_rfl, take_length]

theorem uint16At_of_le (h : i + 2 ≤ b.length) : uint16At b i = some (be16 b i) := if_pos h

theorem uint32At_of_le (h : i + 4 ≤ b.length) : uint32At b i = some (be32 b i) := if_pos h

theorem slice_middle (pre mid post : Str) (hlo : pre.length = lo) (hhi : lo + mid.length = hi) :
    slice (pre ++ (mid ++ post)) lo hi = some mid := by
  rw [slice_of_le (by omega) (by simp only [length_append]; omega), ← append_assoc,
    take_left' (by rw [length_append]; omega), drop_left' hlo]

end

/-! ## Writing in place -/

/-- The bytes `src` written over those of `b` from an offset on. -/
def put (b : Str) (off : Nat) (src : Str) : Option Str :=
  if off + src.length ≤ b.length then some (b.take off ++ src ++ b.drop (off + src.length)) else none

def puts (b : Str) (writes : List (Nat × Str)) : Option Str := writes.foldlM (fun b w => put b w.1 w.2) b

def consecutive : Nat → List Str → List (Nat × Str)
  | _, [] => []
  | off, p :: ps => (off, p) :: consecutive (off + p.length) ps

theorem put_middle (pre old post src : Str) (h : old.length = src.length) :
    put (pre ++ old ++ post) pre.length src = some (pre ++ src ++ post) := by
  have hlen : pre.length + src.length ≤ (pre ++ old ++ post).length := by
    simp only [length_append]
    omega
  have hdrop : (pre ++ old ++ post).drop (pre.length + src.length) = post :=
    drop_left' (by rw [length_append, h])
  rw [put, if_pos hlen, hdrop, append_assoc pre old post, take_left]

theorem puts_consecutive (ps : List Str) (pre old : Str) (h : ps.flatten.length ≤ old.length) :
    puts (pre ++ old) (consecutive pre.length ps) =
      some (pre ++ ps.flatten ++ old.drop ps.flatten.length) := by
  induction ps generalizing pre old with
  | nil => simp [puts, consecutive]
  | cons p ps ih =>
    rw [flatten_cons, length_append] at h
    have hput : put (pre ++ old) pre.length p = some ((pre ++ p) ++ old.drop p.length) := by
      rw [← take_append_drop p.length old, ← append_assoc,
        put_middle _ _ _ _ (by rw [length_take]; omega), take_append_drop]
    have hrest := ih (pre ++ p) (old.drop p.length) (by rw [length_drop]; omega)
    rw [length_append] at hrest
    simp only [puts, consecutive, foldlM_cons, hput, bind_eq_bind, bind_some]
    rw [← puts, hrest]
    simp [drop_drop, append_assoc]

theorem puts_consecutive_all (ps : List Str) (pre old : Str) (h : ps.flatten.length = old.length) :
    puts (pre ++ old) (consecutive pre.length ps) = some (pre ++ ps.flatten) := by
  rw [puts_consecutive ps pre old h.le, h, drop_length, append_nil]

/-- A short `copy` into a field leaves the end of what the field held. -/
def overlay (src field : Str) : Str := src ++ field.drop src.length

theorem length_overlay {src field : Str} (h : src.length ≤ field.length) : (overlay src field).length = field.length := by
  rw [overlay, length_append, length_drop]
  omega

theorem overlay_of_length_eq {src field : Str} (h : src.length = field.length) : overlay src field = src := by
  rw [overlay, h, drop_length, append_nil]

theorem put_overlay (pre field post src : Str) (h : src.length ≤ field.length) :
    put (pre ++ (field ++ post)) pre.length src = some ((pre ++ overlay src field) ++ post) := by
  have hcut : field ++ post = field.take src.length ++ (field.drop src.length ++ post) := by
    rw [← append_assoc, take_append_drop]
  rw [hcut, ← append_assoc, put_middle _ _ _ _ (length_take_of_le h), overlay]
  simp only [append_assoc]

def fieldsAt : Nat → List (Nat × Str) → List (Nat × Str)
  | _, [] => []
  | off, (width, src) :: fields => (off, src) :: fieldsAt (off + width) fields

def written : List (Nat × Str) → Str → Str
  | [], old => old
  | (width, src) :: fields, old => overlay src (old.take width) ++ written fields (old.drop width)

theorem puts_append (b : Str) (ws ws' : List (Nat × Str)) : puts b (ws ++ ws') = (puts b ws).bind (puts · ws') := by
  rw [puts, foldlM_append]
  rfl

theorem puts_fieldsAt (fields : List (Nat × Str)) (pre old : Str) (hsrc : ∀ f ∈ fields, f.2.length ≤ f.1)
    (hroom : (fields.map Prod.fst).sum ≤ old.length) :
    puts (pre ++ old) (fieldsAt pre.length fields) = some (pre ++ written fields old) := by
  induction fields generalizing pre old with
  | nil => rfl
  | cons f fields ih =>
    obtain ⟨width, src⟩ := f
    rw [forall_mem_cons] at hsrc
    rw [map_cons, sum_cons] at hroom
    obtain ⟨hwidth, hrest⟩ := hsrc
    dsimp only at hwidth hroom
    have htake : (old.take width).length = width := length_take_of_le (by omega)
    have hfield : (overlay src (old.take width)).length = width := by
      rw [length_overlay (by omega), htake]
    have hput := put_overlay pre (old.take width) (old.drop width) src (by omega)
    rw [take_append_drop] at hput
    have hnext := ih (pre ++ overlay src (old.take width)) (old.drop width) hrest (by rw [length_drop]; omega)
    rw [length_append, hfield] at hnext
    simp only [puts, fieldsAt, foldlM_cons, hput, bind_eq_bind, bind_some]
    rw [← puts, hnext, written, append_assoc]

def copyAt (b : Str) (off : Nat) (src : Str) : Str :=
  b.take off ++ src.take (b.length - off) ++ b.drop (off + src.length)

def clearFrom (b : Str) (off : Nat) : Str := b.take off ++ List.replicate (b.length - off) 0

theorem copyAt_append {pre old src : Str} {off : Nat} (hoff : pre.length = off) (h : src.length ≤ old.length) :
    copyAt (pre ++ old) off src = pre ++ (src ++ old.drop src.length) := by
  have hroom : src.length ≤ (pre ++ old).length - off := by
    rw [length_append]
    omega
  rw [copyAt, take_left' hoff, take_of_length_le hroom, ← drop_drop, drop_left' hoff,
    append_assoc]

theorem clearFrom_append {pre old : Str} {off : Nat} (hoff : pre.length = off) :
    clearFrom (pre ++ old) off = pre ++ List.replicate old.length 0 := by
  rw [clearFrom, take_left' hoff, length_append, hoff, Nat.add_sub_cancel_left]

end Go
