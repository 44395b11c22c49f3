import ArangeTun.Stealth.Lemmas.Record

/-! # One direction of the record layer -/

namespace ArangeTun.Stealth

open Go Noise List Option

variable {κ : Type} {A : Aead κ}

def Dead (send : CipherState κ) (out : Pipe) : Prop := maxNonce < send.n ∨ ∃ err, out.limit = some (0, err)

structure Link (A : Aead κ) (pad : Bool) (send : CipherState κ) (out : Pipe) (recv : CipherState κ) (head sent : Str)
    (pending : List Record) (tail : Str) : Prop where
  key : send.key = recv.key
  fits : ∀ r ∈ pending, r.Fits pad
  bytes : out.bytes = wireOf A recv.key pad recv.n pending ++ tail
  content : head ++ pending.flatMap Record.chunk = sent
  nonce : recv.n + pending.length ≤ maxNonce + 1
  torn : Partial tail
  synced : (tail = [] ∧ send.n = recv.n + pending.length) ∨ Dead send out

theorem Link.pending_eq_nil {pad : Bool} {send recv : CipherState κ} {out : Pipe} {head sent : Str}
    {pending : List Record} {tail : Str} (h : Link A pad send out recv head sent pending tail) (hout : out.bytes = []) :
    pending = [] := by
  cases pending with
  | nil => rfl
  | cons r pending =>
    have hlen := congrArg List.length (hout.symm.trans h.bytes)
    rw [wireOf, length_append, length_append, length_noiseFrame, length_nil] at hlen
    omega

theorem not_dead {send : CipherState κ} {out : Pipe} (hn : send.n ≤ maxNonce)
    (hroom : ∀ room err, out.limit = some (room, err) → 0 < room) : ¬ Dead send out := by
  rintro (hn' | ⟨err, herr⟩)
  · omega
  · exact absurd (hroom 0 err herr) (Nat.lt_irrefl 0)

section

variable {pad : Bool} {w : Writer κ} {recv : CipherState κ} {head sent : Str} {pending : List Record} {tail : Str}
  {r : Record}

theorem writeRecord_of_gt (A : Aead κ) (pad : Bool) (r : Record) (h : maxNonce < w.send.n) :
    ∃ w', writeRecord A pad w r.padLen r.chunk = (w', some errMaxNonce) ∧ w'.send = w.send ∧ w'.out = w.out ∧
      w'.frames = w.frames := by
  refine ⟨{ w with padBuf := (plaintext pad w.padBuf r.padLen r.chunk).2 }, ?_, rfl, rfl, rfl⟩
  rw [writeRecord, CipherState.encrypt_of_gt h]

theorem writeRecord_of_le (h : w.send.n ≤ maxNonce) (hr : r.Fits pad) :
    ∃ padBuf, writeRecord A pad w r.padLen r.chunk =
      (⟨{ w.send with n := w.send.n + 1 }, padBuf,
        (w.out.write (noiseFrame (A.encrypt w.send.key w.send.n (r.plain pad)))).1,
        w.frames ++ [A.encrypt w.send.key w.send.n (r.plain pad)]⟩,
        (w.out.write (noiseFrame (A.encrypt w.send.key w.send.n (r.plain pad)))).2) := by
  have hlen := (length_encrypt_plain A w.send.key w.send.n hr).2
  refine ⟨(plaintext pad w.padBuf r.padLen r.chunk).2, ?_⟩
  rw [writeRecord, CipherState.encrypt_of_le h, plaintext_eq]
  simp only [writeNoiseFrame, if_neg (Nat.not_lt.mpr hlen)]

theorem Link.extend (h : Link A pad w.send w.out recv head sent pending tail) (hr : r.Fits pad)
    (htail : tail = []) (hsync : w.send.n = recv.n + pending.length) (hn : w.send.n ≤ maxNonce) {out : Pipe}
    (hout : out.bytes = w.out.bytes ++ noiseFrame (A.encrypt w.send.key w.send.n (r.plain pad))) :
    Link A pad { w.send with n := w.send.n + 1 } out recv head (sent ++ r.chunk) (pending ++ [r]) [] := by
  refine ⟨h.key, ?_, ?_, ?_, ?_, .nil, .inl ⟨rfl, ?_⟩⟩
  · intro r' hr'
    rcases mem_append.mp hr' with hr' | hr'
    · exact h.fits r' hr'
    · rw [mem_singleton.mp hr']
      exact hr
  · rw [hout, h.bytes, htail, wireOf_concat, hsync, h.key, append_nil, append_nil]
  · rw [flatMap_append, ← append_assoc, h.content]
    simp
  · rw [length_append, length_singleton]
    omega
  · rw [length_append, length_singleton]
    simp only
    omega

theorem writeRecord_spec (h : Link A pad w.send w.out recv head sent pending tail) (hr : r.Fits pad) :
    (∃ w', writeRecord A pad w r.padLen r.chunk = (w', none) ∧ ¬ Dead w.send w.out ∧
      Link A pad w'.send w'.out recv head (sent ++ r.chunk) (pending ++ [r]) []) ∨
    ∃ w' err tail', writeRecord A pad w r.padLen r.chunk = (w', some err) ∧ Dead w'.send w'.out ∧
      Link A pad w'.send w'.out recv head sent pending tail' := by
  rcases Nat.lt_or_ge maxNonce w.send.n with hn | hn
  · obtain ⟨w', hw, hsend, hout, -⟩ := writeRecord_of_gt A pad r hn
    refine .inr ⟨w', _, tail, hw, ?_, ?_⟩
    · rw [hsend]
      exact .inl hn
    · rw [hsend, hout]
      exact h
  · obtain ⟨padBuf, hw⟩ := writeRecord_of_le (A := A) hn hr
    obtain ⟨hne, hlen⟩ := length_encrypt_plain A w.send.key w.send.n hr
    cases hlimit : w.out.limit with
    | none =>
      have halive : ¬ Dead w.send w.out := not_dead hn fun room err herr => by
        rw [hlimit] at herr
        cases herr
      obtain ⟨htail, hsync⟩ := h.synced.resolve_right halive
      simp only [Pipe.write, hlimit] at hw
      exact .inl ⟨_, hw, halive, h.extend hr htail hsync hn rfl⟩
    | some limit =>
      obtain ⟨room, err⟩ := limit
      simp only [Pipe.write, hlimit] at hw
      by_cases hroom : (noiseFrame (A.encrypt w.send.key w.send.n (r.plain pad))).length ≤ room
      · have halive : ¬ Dead w.send w.out := not_dead hn fun room' err' herr => by
          rw [hlimit] at herr
          cases herr
          rw [length_noiseFrame] at hroom
          omega
        obtain ⟨htail, hsync⟩ := h.synced.resolve_right halive
        rw [if_pos hroom] at hw
        exact .inl ⟨_, hw, halive, h.extend hr htail hsync hn rfl⟩
      · rw [if_neg hroom] at hw
        rcases h.synced with ⟨rfl, hsync⟩ | (hn' | ⟨err', herr⟩)
        · refine .inr ⟨_, _, (noiseFrame (A.encrypt w.send.key w.send.n (r.plain pad))).take room, hw, .inr ⟨err, rfl⟩,
            h.key, h.fits, ?_, h.content, h.nonce, ?_, .inr (.inr ⟨err, rfl⟩)⟩
          · rw [h.bytes, append_nil]
          · exact ⟨_, room, hne, hlen, by omega, rfl⟩
        · omega
        · rw [hlimit] at herr
          cases herr
          refine .inr ⟨_, _, tail, hw, .inr ⟨err, rfl⟩, h.key, h.fits, ?_, h.content, h.nonce, h.torn,
            .inr (.inr ⟨err, rfl⟩)⟩
          simpa using h.bytes

theorem writeRecord_frames (hr : r.Fits pad) (h : ∀ m ∈ w.frames, m.length ≤ 65535) :
    ∀ m ∈ (writeRecord A pad w r.padLen r.chunk).1.frames, m.length ≤ 65535 := by
  rcases Nat.lt_or_ge maxNonce w.send.n with hn | hn
  · obtain ⟨w', hw, -, -, hframes⟩ := writeRecord_of_gt A pad r hn
    rw [hw]
    simp only [hframes]
    exact h
  · obtain ⟨padBuf, hw⟩ := writeRecord_of_le (A := A) hn hr
    rw [hw]
    intro m hm
    rcases mem_append.mp hm with hm | hm
    · exact h m hm
    · rw [mem_singleton.mp hm]
      exact (length_encrypt_plain A _ _ hr).2

theorem writeLoop_spec (turns : Nat) (draw : Nat → UInt8) (p : Str) (total : Nat) (hturns : p.length ≤ turns)
    (h : Link A pad w.send w.out recv head sent pending tail) (hframes : ∀ m ∈ w.frames, m.length ≤ 65535) :
    ∃ w' k err pending' tail', writeLoop A pad turns draw w p total = (w', total + k, err) ∧ k ≤ p.length ∧
      Link A pad w'.send w'.out recv head (sent ++ p.take k) pending' tail' ∧ (err = none → k = p.length) ∧
      (err ≠ none → Dead w'.send w'.out) ∧ (Dead w.send w.out → k = 0 ∧ Dead w'.send w'.out) ∧
      ∀ m ∈ w'.frames, m.length ≤ 65535 := by
  induction turns generalizing draw w p total sent pending tail with
  | zero =>
    obtain rfl := length_eq_zero_iff.mp (Nat.le_zero.mp hturns)
    exact ⟨w, 0, none, pending, tail, rfl, Nat.le_refl _, by simpa using h, fun _ => rfl, fun he => absurd rfl he,
      fun hdead => ⟨rfl, hdead⟩, hframes⟩
  | succ turns ih =>
    by_cases hp : p = []
    · subst hp
      exact ⟨w, 0, none, pending, tail, rfl, Nat.le_refl _, by simpa using h, fun _ => rfl, fun he => absurd rfl he,
        fun hdead => ⟨rfl, hdead⟩, hframes⟩
    · have hpos : 0 < p.length := length_pos_of_ne_nil hp
      have hlimit : 0 < payloadLimit pad := by cases pad <;> decide
      let r : Record := ⟨draw 0, p.take (payloadLimit pad)⟩
      have hlen : r.chunk.length = min (payloadLimit pad) p.length := length_take
      have hchunk : p.take r.chunk.length = r.chunk := by
        rw [hlen, ← take_take, take_length]
      have hr : r.Fits pad := ⟨ne_nil_of_length_pos (by omega), by omega⟩
      have hframes' := writeRecord_frames (A := A) hr hframes
      rw [writeLoop, if_neg hp]
      rcases writeRecord_spec h hr with ⟨w', hw, halive, hlink⟩ | ⟨w', err, tail', hw, hdead, hlink⟩
      · rw [hw] at hframes'
        obtain ⟨w'', k, err, pending', tail', hloop, hk, hlink', hok, herr, -, hframes''⟩ :=
          ih (fun i => draw (i + 1)) (p.drop r.chunk.length) (total + r.chunk.length)
            (by rw [length_drop]; omega) hlink hframes'
        rw [length_drop] at hk hok
        have htake : p.take (r.chunk.length + k) = r.chunk ++ (p.drop r.chunk.length).take k := by
          rw [take_add, hchunk]
        refine ⟨w'', r.chunk.length + k, err, pending', tail', ?_, by omega, ?_, ?_, herr,
          fun hdead => absurd hdead halive, hframes''⟩
        · simp only [r] at hw hloop
          simp only [hw, hloop, r, Nat.add_assoc]
        · rwa [htake, ← append_assoc]
        · intro he
          have := hok he
          omega
      · rw [hw] at hframes'
        refine ⟨w', 0, some err, pending, tail', ?_, Nat.zero_le _, by simpa using hlink,
          fun he => absurd he (some_ne_none err), fun _ => hdead, fun _ => ⟨rfl, hdead⟩, hframes'⟩
        simp only [r] at hw
        simp only [hw]
        rfl

end

section

variable {send : CipherState κ} {out : Pipe} {returned sent : Str} {pending : List Record} {tail : Str}

theorem fillReadBuf_of_ne {pad : Bool} {turns : Nat} {recv : CipherState κ} {readBuf : Str} {r : Stream}
    (h : readBuf ≠ []) : fillReadBuf A pad turns recv readBuf r = .ok (recv, readBuf, r) := by
  cases turns with
  | zero => rfl
  | succ turns => rw [fillReadBuf, if_pos h]

theorem Link.fillReadBuf {pad : Bool} {recv : CipherState κ} {r : Record} {head : Str}
    (h : Link A pad send out recv head sent (r :: pending) tail) (turns : Nat) (ending : Error) :
    ∃ rest, fillReadBuf A pad (turns + 1) recv [] ⟨out.bytes, ending⟩ =
        .ok ({ recv with n := recv.n + 1 }, r.chunk, ⟨rest, ending⟩) ∧
      Link A pad send { out with bytes := rest } { recv with n := recv.n + 1 } (head ++ r.chunk) sent pending tail := by
  have hr := h.fits r mem_cons_self
  obtain ⟨hne, hlen⟩ := length_encrypt_plain A recv.key recv.n hr
  have hn : recv.n ≤ maxNonce := by
    have := h.nonce
    rw [length_cons] at this
    omega
  have hframe := readNoiseFrame_noiseFrame hne hlen (wireOf A recv.key pad (recv.n + 1) pending ++ tail) ending
  refine ⟨wireOf A recv.key pad (recv.n + 1) pending ++ tail, ?_, h.key, ?_, rfl, ?_, ?_, h.torn, ?_⟩
  · rw [Stealth.fillReadBuf, if_neg (not_not.mpr rfl), h.bytes, wireOf, append_assoc, hframe]
    simp only [CipherState.decrypt_encrypt hn, unpad_plain]
    exact fillReadBuf_of_ne hr.nonempty
  · exact fun r' hr' => h.fits r' (mem_cons_of_mem _ hr')
  · rw [append_assoc, ← flatMap_cons]
    exact h.content
  · have := h.nonce
    rw [length_cons] at this
    simp only
    omega
  · rcases h.synced with ⟨htail, hsync⟩ | hdead
    · refine .inl ⟨htail, ?_⟩
      rw [length_cons] at hsync
      simp only
      omega
    · exact .inr hdead

theorem read_spec {c : NoiseConn κ} (n : Nat) (ending : Error)
    (h : Link A c.pad send out c.recv (returned ++ c.readBuf) sent pending tail) :
    (∃ data recv readBuf rest pending',
      c.read A n ⟨out.bytes, ending⟩ = .ok (data, { c with recv := recv, readBuf := readBuf }, ⟨rest, ending⟩) ∧
      Link A c.pad send { out with bytes := rest } recv (returned ++ data ++ readBuf) sent pending' tail ∧
      (0 < n → data ≠ [])) ∨
    ∃ err, c.read A n ⟨out.bytes, ending⟩ = .error err ∧ EndsWith ending err ∧ c.readBuf = [] ∧ pending = [] := by
  have hsome {buf : Str} (hbuf : buf ≠ []) (hn : 0 < n) : buf.take n ≠ [] := by
    rw [Ne, take_eq_nil_iff]
    rintro (h0 | h0)
    · omega
    · exact hbuf h0
  by_cases hbuf : c.readBuf = []
  · cases pending with
    | nil =>
      have hbytes : out.bytes = tail := h.bytes
      obtain ⟨err, herr, hends⟩ := readNoiseFrame_partial h.torn ending
      refine .inr ⟨err, ?_, hends, hbuf, rfl⟩
      rw [NoiseConn.read, hbuf, hbytes, Stealth.fillReadBuf, if_neg (not_not.mpr rfl), herr]
    | cons r pending =>
      obtain ⟨rest, hfill, hlink⟩ := h.fillReadBuf out.bytes.length ending
      refine .inl ⟨r.chunk.take n, { c.recv with n := c.recv.n + 1 }, r.chunk.drop n, rest, pending, ?_, ?_,
        hsome (h.fits r mem_cons_self).nonempty⟩
      · rw [NoiseConn.read, hbuf, hfill]
      · rw [hbuf, append_nil] at hlink
        rwa [append_assoc, take_append_drop]
  · refine .inl ⟨c.readBuf.take n, c.recv, c.readBuf.drop n, out.bytes, pending, ?_, ?_, hsome hbuf⟩
    · rw [NoiseConn.read, fillReadBuf_of_ne hbuf]
    · rwa [append_assoc, take_append_drop]

end

end ArangeTun.Stealth
