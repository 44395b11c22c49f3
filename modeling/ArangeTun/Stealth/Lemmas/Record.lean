import ArangeTun.Stealth.Model

/-! # Frames and records -/

namespace ArangeTun.Stealth

open Go Noise List

/-! ## Frames -/

section

variable {msg : Str}

@[simp] theorem length_noiseFrame : (noiseFrame msg).length = 2 + msg.length := by
  simp [noiseFrame, putUint16]
  omega

theorem toNat_length (h : msg.length ≤ 65535) : (UInt16.ofNat msg.length).toNat = msg.length := by
  rw [UInt16.toNat_ofNat']
  omega

theorem length_ne_zero (hne : msg ≠ []) (h : msg.length ≤ 65535) : UInt16.ofNat msg.length ≠ 0 := by
  intro hz
  have := toNat_length h
  rw [hz] at this
  exact hne (length_eq_zero_iff.mp this.symm)

theorem readNoiseFrame_header (hne : msg ≠ []) (h : msg.length ≤ 65535) (rest : Str) (ending : Error) :
    readNoiseFrame ⟨putUint16 (UInt16.ofNat msg.length) ++ rest, ending⟩ = readFull ⟨rest, ending⟩ msg.length := by
  have hhdr : be16 (putUint16 (UInt16.ofNat msg.length)) 0 = UInt16.ofNat msg.length := by
    simpa using be16_putUint16 (UInt16.ofNat msg.length) []
  have htwo : readFull ⟨putUint16 (UInt16.ofNat msg.length) ++ rest, ending⟩ 2 =
      .ok (putUint16 (UInt16.ofNat msg.length), ⟨rest, ending⟩) := by
    rw [readFull_of_le (by simp [putUint16])]
    rfl
  rw [readNoiseFrame, htwo]
  simp only [hhdr, if_neg (length_ne_zero hne h), toNat_length h]

theorem readNoiseFrame_noiseFrame (hne : msg ≠ []) (h : msg.length ≤ 65535) (rest : Str) (ending : Error) :
    readNoiseFrame ⟨noiseFrame msg ++ rest, ending⟩ = .ok (msg, ⟨rest, ending⟩) := by
  rw [noiseFrame, append_assoc, readNoiseFrame_header hne h, readFull_of_le (by simp)]
  simp

def Partial (tail : Str) : Prop :=
  ∃ msg i, msg ≠ [] ∧ msg.length ≤ 65535 ∧ i < (noiseFrame msg).length ∧ tail = (noiseFrame msg).take i

theorem Partial.nil : Partial [] := ⟨[0], 0, by simp, by simp, by simp, rfl⟩

def EndsWith (ending err : Error) : Prop := err = ending ∨ (ending = .eof ∧ err = .unexpectedEOF)

theorem readFull_short {r : Stream} {n : Nat} (h : r.bytes.length < n) :
    ∃ err, readFull r n = .error err ∧ EndsWith r.ending err := by
  refine ⟨_, if_neg (by omega), ?_⟩
  split
  · rename_i he
    exact .inr ⟨he.2, rfl⟩
  · exact .inl rfl

theorem readNoiseFrame_partial {tail : Str} (h : Partial tail) (ending : Error) :
    ∃ err, readNoiseFrame ⟨tail, ending⟩ = .error err ∧ EndsWith ending err := by
  obtain ⟨msg, i, hne, hlen, hi, rfl⟩ := h
  rw [length_noiseFrame] at hi
  rcases Nat.lt_or_ge i 2 with h2 | h2
  · obtain ⟨err, herr, hends⟩ := readFull_short (r := ⟨(noiseFrame msg).take i, ending⟩) (n := 2) (by
      rw [length_take, length_noiseFrame]
      omega)
    exact ⟨err, by rw [readNoiseFrame, herr], hends⟩
  · have hcut : (noiseFrame msg).take i = putUint16 (UInt16.ofNat msg.length) ++ msg.take (i - 2) := by
      rw [noiseFrame, take_append, take_of_length_le (by simpa [putUint16] using h2)]
      rfl
    obtain ⟨err, herr, hends⟩ := readFull_short (r := ⟨msg.take (i - 2), ending⟩) (n := msg.length) (by
      rw [length_take]
      omega)
    exact ⟨err, by rw [hcut, readNoiseFrame_header hne hlen, herr], hends⟩

end

/-! ## Records -/

structure Record where
  padLen : UInt8
  chunk : Str

def Record.plain (pad : Bool) (r : Record) : Str :=
  if pad then r.padLen :: (r.chunk ++ List.replicate r.padLen.toNat 0) else r.chunk

structure Record.Fits (pad : Bool) (r : Record) : Prop where
  nonempty : r.chunk ≠ []
  limit : r.chunk.length ≤ payloadLimit pad

section

variable {pad : Bool} {r : Record}

theorem plaintext_eq (pad : Bool) (padBuf : Str) (r : Record) :
    (plaintext pad padBuf r.padLen r.chunk).1 = r.plain pad := by
  cases pad with
  | false => rfl
  | true =>
    let need := 1 + r.chunk.length + r.padLen.toNat
    let buf := if padBuf.length < need then List.replicate need 0 else padBuf
    have hbuf : need ≤ buf.length := by
      simp only [buf]
      split
      · simp
      · omega
    have hold : (buf.take need).length = need := by
      rw [length_take]
      omega
    show clearFrom (copyAt (copyAt (buf.take need) 0 [r.padLen]) 1 r.chunk) (1 + r.chunk.length) = _
    generalize buf.take need = old at hold
    have hfirst : copyAt ([] ++ old) 0 [r.padLen] = [] ++ ([r.padLen] ++ old.drop 1) :=
      copyAt_append rfl (by simp only [length_singleton]; omega)
    have hchunk : copyAt ([r.padLen] ++ old.drop 1) 1 r.chunk =
        [r.padLen] ++ (r.chunk ++ (old.drop 1).drop r.chunk.length) :=
      copyAt_append rfl (by rw [length_drop]; omega)
    rw [nil_append, nil_append] at hfirst
    rw [hfirst, hchunk, ← append_assoc, clearFrom_append (by rw [length_append]; rfl), drop_drop,
      length_drop, hold]
    simp [Record.plain, need]

theorem length_plain (h : r.Fits pad) : (r.plain pad).length ≤ noiseMaxPayload := by
  have hlimit := h.limit
  have hpad := r.padLen.toNat_lt
  cases pad with
  | false => exact hlimit
  | true =>
    simp only [payloadLimit, ↓reduceIte, noisePaddedMaxPayload, noiseMaxPad, noiseMaxPayload] at hlimit
    simp only [Record.plain, ↓reduceIte, length_cons, length_append, length_replicate, noiseMaxPayload]
    omega

theorem unpad_plain (pad : Bool) (r : Record) : unpad pad (r.plain pad) = .ok r.chunk := by
  cases pad with
  | false => rfl
  | true =>
    have hlen : (r.padLen :: (r.chunk ++ List.replicate r.padLen.toNat 0)).length =
        (r.padLen :: r.chunk).length + r.padLen.toNat := by
      simp only [length_cons, length_append, length_replicate]
      omega
    simp only [Record.plain, unpad, ↓reduceIte, hlen, Nat.add_sub_cancel]
    rw [if_neg (by simp only [length_cons]; omega), ← cons_append, take_left]
    rfl

end

section

variable {κ : Type} (A : Aead κ)

def wireOf (key : κ) (pad : Bool) : Nat → List Record → Str
  | _, [] => []
  | n, r :: rs => noiseFrame (A.encrypt key n (r.plain pad)) ++ wireOf key pad (n + 1) rs

theorem wireOf_concat (key : κ) (pad : Bool) (n : Nat) (rs : List Record) (r : Record) :
    wireOf A key pad n (rs ++ [r]) =
      wireOf A key pad n rs ++ noiseFrame (A.encrypt key (n + rs.length) (r.plain pad)) := by
  induction rs generalizing n with
  | nil => simp [wireOf]
  | cons r' rs ih =>
    rw [cons_append, wireOf, ih, wireOf, append_assoc, length_cons, Nat.add_right_comm n 1,
      Nat.add_assoc n]

theorem length_encrypt_plain (key : κ) (n : Nat) {pad : Bool} {r : Record} (h : r.Fits pad) :
    A.encrypt key n (r.plain pad) ≠ [] ∧ (A.encrypt key n (r.plain pad)).length ≤ 65535 := by
  have hlen := A.length_encrypt key n (r.plain pad)
  have hplain := length_plain h
  rw [noiseMaxPayload] at hplain
  exact ⟨ne_nil_of_length_pos (by omega), by omega⟩

end

end ArangeTun.Stealth
