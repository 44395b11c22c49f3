import ArangeTun.Stealth.Lemmas.Link

/-! # The stealth transport: transparency -/

namespace ArangeTun.Stealth

open Go Noise Transition List Option

variable {κ ε : Type}

/-! ## The handshake -/

section

variable {S : Suite κ ε} {psk : Str} {a b : Build}

theorem readNoiseFrame_written {w w' : Pipe} {msg m : Str} {ending : Error} {r : Stream} (hw : w.bytes = [])
    (hwrite : writeNoiseFrame w msg = (w', none)) (hread : readNoiseFrame ⟨w'.bytes, ending⟩ = .ok (m, r)) : m = msg := by
  have hlen : msg.length ≤ 65535 := by
    by_contra hlong
    rw [writeNoiseFrame, if_pos (by omega)] at hwrite
    cases hwrite
  have hbytes : w'.bytes = noiseFrame msg ++ [] := by
    rw [writeNoiseFrame, if_neg (by omega), Pipe.write] at hwrite
    split at hwrite
    · obtain ⟨rfl, -⟩ := Prod.mk.inj hwrite
      simp [hw]
    · split at hwrite
      · obtain ⟨rfl, -⟩ := Prod.mk.inj hwrite
        simp [hw]
      · cases hwrite
  by_cases hne : msg = []
  · subst hne
    rw [hbytes] at hread
    cases hread
  · rw [hbytes, readNoiseFrame_noiseFrame hne hlen] at hread
    cases hread
    rfl

theorem pads_agree (a b : Build) :
    a.pads (versionFromPayload (b.reply (versionFromPayload a.firstPayload))) =
      b.pads (versionFromPayload a.firstPayload) := by
  cases a <;> cases b <;> rfl

/-- Two ends that completed the handshake with each other start with the same flag, and each has the key that the
other sends with. -/
theorem Completed.fresh {initiator acceptor : NoiseConn κ} (h : Completed S psk a b initiator acceptor) :
    ∃ pad k₀ k₁, initiator = ⟨pad, ⟨k₀, 0⟩, [], ⟨k₁, 0⟩, []⟩ ∧ acceptor = ⟨pad, ⟨k₁, 0⟩, [], ⟨k₀, 0⟩, []⟩ := by
  obtain ⟨e, e', w₀, w₁, w₀', w₁', ending, ending', r, r', hw₀, hw₁, hhello, hrespond, hfinish⟩ := h.handshake
  unfold initiatorHello at hhello
  split at hhello
  · cases hhello
  · rename_i hwrite
    cases hhello
    unfold responder at hrespond
    split at hrespond
    · cases hrespond
    · rename_i m r₀ hread
      obtain rfl := readNoiseFrame_written hw₀ hwrite hread
      rw [S.readHello_hello] at hrespond
      simp only at hrespond
      split at hrespond
      · cases hrespond
      · rename_i hwrite'
        cases hrespond
        unfold initiatorFinish at hfinish
        split at hfinish
        · cases hfinish
        · rename_i m' r₁ hread'
          obtain rfl := readNoiseFrame_written hw₁ hwrite' hread'
          rw [S.readAnswer_answer] at hfinish
          cases hfinish
          refine ⟨_, _, _, rfl, ?_⟩
          rw [pads_agree]
          rfl

end

/-! ## Runs -/

section

variable {A : Aead κ} {s s' : State κ}

/-- `sent` was put into records: everything that the calls wrote, unless one of them failed. -/
structure Sent (send : CipherState κ) (out : Pipe) (writes : List WriteCall) (sent : Str) : Prop where
  isPrefix : sent <+: writes.flatMap WriteCall.p
  whole : sent = writes.flatMap WriteCall.p ∨ (Dead send out ∧ ∃ w ∈ writes, w.err ≠ none)

theorem Sent.eq_written {a : End κ} {sent : Str} (h : Sent a.conn.send a.out a.writes sent)
    (hok : ∀ w ∈ a.writes, w.err = none) : sent = a.written := by
  rcases h.whole with heq | ⟨-, w, hw, herr⟩
  · exact heq
  · exact absurd (hok w hw) herr

theorem Sent.concat {send send' : CipherState κ} {out out' : Pipe} {writes : List WriteCall} {sent p : Str} {k : Nat}
    {err : Option Error} (h : Sent send out writes sent) (hok : err = none → k = p.length)
    (hdead : err ≠ none → Dead send' out') (hzero : Dead send out → k = 0 ∧ Dead send' out') :
    Sent send' out' (writes ++ [⟨p, k, err⟩]) (sent ++ p.take k) := by
  have hwritten : (writes ++ [WriteCall.mk p k err]).flatMap WriteCall.p = writes.flatMap WriteCall.p ++ p := by simp
  constructor
  · rw [hwritten]
    rcases h.whole with rfl | ⟨hd, -⟩
    · refine (prefix_append_right_inj _).mpr ?_
      exact take_prefix k p
    · rw [(hzero hd).1, take_zero, append_nil]
      exact h.isPrefix.trans (prefix_append _ _)
  · rw [hwritten]
    cases err with
    | none =>
      rcases h.whole with rfl | ⟨hd, w, hw, herr⟩
      · rw [hok rfl, take_length]
        exact .inl rfl
      · exact .inr ⟨(hzero hd).2, w, mem_append_left _ hw, herr⟩
    | some err =>
      have hmem : WriteCall.mk p k (some err) ∈ writes ++ [⟨p, k, some err⟩] :=
        mem_append_right _ (mem_singleton_self _)
      exact .inr ⟨hdead (some_ne_none err), _, hmem, some_ne_none err⟩

structure Sound (A : Aead κ) (a b : End κ) : Prop where
  pad : b.conn.pad = a.conn.pad
  link : ∃ sent pending tail,
    Link A a.conn.pad a.conn.send a.out b.conn.recv (b.returned ++ b.conn.readBuf) sent pending tail ∧
      Sent a.conn.send a.out a.writes sent
  frames : ∀ m ∈ a.frames, m.length ≤ 65535
  writes : ∀ w ∈ a.writes, w.err = none → w.n = w.p.length
  errors : ∀ x ∈ b.readErrors, EndsWith x.1 x.2

theorem Sound.write {a b : End κ} (h : Sound A a b) (p : Str) (draw : Nat → UInt8) : Sound A (a.write A p draw) b := by
  obtain ⟨sent, pending, tail, hlink, hsent⟩ := h.link
  have hlink' : Link A a.conn.pad (Writer.mk a.conn.send a.conn.padBuf a.out a.frames).send
      (Writer.mk a.conn.send a.conn.padBuf a.out a.frames).out b.conn.recv (b.returned ++ b.conn.readBuf) sent pending
      tail := hlink
  obtain ⟨w, k, err, pending', tail', hloop, hk, hlink'', hok, hdead, hzero, hframes⟩ :=
    writeLoop_spec p.length draw p 0 (Nat.le_refl _) hlink' h.frames
  rw [Nat.zero_add] at hloop
  have hwrite : a.write A p draw = ⟨{ a.conn with send := w.send, padBuf := w.padBuf }, w.out, w.frames,
      a.writes ++ [⟨p, k, err⟩], a.returned, a.readErrors⟩ := by
    rw [End.write, hloop]
  rw [hwrite]
  refine ⟨h.pad, ⟨sent ++ p.take k, pending', tail', hlink'', hsent.concat hok hdead hzero⟩, hframes, ?_, h.errors⟩
  intro w' hw' hnone
  rcases mem_append.mp hw' with hw' | hw'
  · exact h.writes w' hw' hnone
  · obtain rfl := mem_singleton.mp hw'
    exact hok hnone

theorem Sound.returned_prefix {a b : End κ} (h : Sound A a b) : b.returned <+: a.written := by
  obtain ⟨sent, pending, tail, hlink, hsent⟩ := h.link
  refine List.IsPrefix.trans ?_ hsent.isPrefix
  rw [← hlink.content, append_assoc]
  exact prefix_append _ _

theorem Sound.returned_eq {a b : End κ} (h : Sound A a b) (hok : ∀ w ∈ a.writes, w.err = none)
    (hout : a.out.bytes = []) (hbuf : b.conn.readBuf = []) : b.returned = a.written := by
  obtain ⟨sent, pending, tail, hlink, hsent⟩ := h.link
  have hcontent := hlink.content
  rw [hlink.pending_eq_nil hout, hbuf, flatMap_nil, append_nil, append_nil] at hcontent
  exact hcontent.trans (hsent.eq_written hok)

/-- `Read` at `b` takes bytes from the front of the stream, or everything was returned and it has the error of the raw
connection. -/
theorem Sound.read {a b : End κ} (h : Sound A a b) (n : Nat) (ending : Error) :
    (∃ data recv readBuf rest,
      b.conn.read A n ⟨a.out.bytes, ending⟩ =
        .ok (data, { b.conn with recv := recv, readBuf := readBuf }, ⟨rest, ending⟩) ∧
      Sound A { a with out := { a.out with bytes := rest } }
        { b with conn := { b.conn with recv := recv, readBuf := readBuf }, returned := b.returned ++ data } ∧
      (0 < n → data ≠ [])) ∨
    ∃ err, b.conn.read A n ⟨a.out.bytes, ending⟩ = .error err ∧ EndsWith ending err ∧
      ((∀ w ∈ a.writes, w.err = none) → b.returned = a.written) := by
  obtain ⟨sent, pending, tail, hlink, hsent⟩ := h.link
  rw [← h.pad] at hlink
  rcases read_spec n ending hlink with
    ⟨data, recv, readBuf, rest, pending', hread, hlink', hdata⟩ | ⟨err, hread, hends, hbuf, rfl⟩
  · rw [h.pad] at hlink'
    exact .inl ⟨data, recv, readBuf, rest, hread,
      ⟨h.pad, ⟨sent, pending', tail, hlink', ⟨hsent.isPrefix, hsent.whole⟩⟩, h.frames, h.writes, h.errors⟩, hdata⟩
  · refine .inr ⟨err, hread, hends, fun hok => ?_⟩
    have hcontent := hlink.content
    rw [hbuf, flatMap_nil, append_nil, append_nil] at hcontent
    exact hcontent.trans (hsent.eq_written hok)

def Inv (A : Aead κ) (s : State κ) : Prop := ∀ side, Sound A (s.ends side) (s.ends !side)

theorem inv_of_side (side : Bool) (h : Sound A (s.ends side) (s.ends !side)) (h' : Sound A (s.ends !side) (s.ends side)) :
    Inv A s := by
  intro d
  rcases Bool.eq_or_eq_not d side with rfl | rfl
  · exact h
  · rwa [Bool.not_not]

@[simp] theorem setEnd_ends_self (side : Bool) (e : End κ) : (s.setEnd side e).ends side = e := by
  simp [State.setEnd]

@[simp] theorem setEnd_ends_not (side : Bool) (e : End κ) : (s.setEnd side e).ends (!side) = s.ends !side := by
  simp [State.setEnd]

@[simp] theorem setEnd_not_ends (side : Bool) (e : End κ) : (s.setEnd (!side) e).ends side = s.ends side := by
  simp [State.setEnd]

theorem step_inv {act : Action} (h : Inv A s) (hs : step A s act = some s') : Inv A s' := by
  cases act with
  | write side p draw =>
    obtain rfl := Option.some.inj hs
    have hin := h (!side)
    rw [Bool.not_not] at hin
    apply inv_of_side side
    · rw [setEnd_ends_self, setEnd_ends_not]
      exact (h side).write p draw
    · rw [setEnd_ends_self, setEnd_ends_not]
      -- writing does not touch what the end reads
      exact ⟨hin.pad, hin.link, hin.frames, hin.writes, hin.errors⟩
  | read side n ending =>
    have hin := h (!side)
    rw [Bool.not_not] at hin
    have hout := h side
    simp only [step, ite_none_left_eq_some] at hs
    obtain ⟨-, hs⟩ := hs
    rcases hin.read n ending with ⟨data, recv, readBuf, rest, hread, hsound, -⟩ | ⟨err, hread, hends, -⟩
    · rw [hread] at hs
      obtain rfl := Option.some.inj hs
      apply inv_of_side side
      · rw [setEnd_not_ends, setEnd_ends_self, setEnd_ends_self]
        exact ⟨hout.pad, hout.link, hout.frames, hout.writes, hout.errors⟩
      · rw [setEnd_not_ends, setEnd_ends_self, setEnd_ends_self]
        exact hsound
    · rw [hread] at hs
      obtain rfl := Option.some.inj hs
      apply inv_of_side side
      · rw [setEnd_ends_self, setEnd_ends_not]
        exact ⟨hout.pad, hout.link, hout.frames, hout.writes, hout.errors⟩
      · rw [setEnd_ends_self, setEnd_ends_not]
        refine ⟨hin.pad, hin.link, hin.frames, hin.writes, fun x hx => ?_⟩
        obtain rfl := mem_singleton.mp hx
        exact hends

theorem Sound.fresh (A : Aead κ) (pad : Bool) (k k' : κ) (limit limit' : Option (Nat × Error)) :
    Sound A ⟨⟨pad, ⟨k, 0⟩, [], ⟨k', 0⟩, []⟩, ⟨[], limit⟩, [], [], [], []⟩
      ⟨⟨pad, ⟨k', 0⟩, [], ⟨k, 0⟩, []⟩, ⟨[], limit'⟩, [], [], [], []⟩ := by
  refine ⟨rfl, ⟨[], [], [], ⟨rfl, ?_, rfl, rfl, ?_, .nil, .inl ⟨rfl, rfl⟩⟩, prefix_refl _, .inl rfl⟩, ?_, ?_, ?_⟩
  all_goals simp

end

/-- What an end has read is the start of what the other has written, and all of it when no bytes are left. -/
theorem stealth_is_transparent (S : Suite κ ε) (psk : Str) (a b : Build) (initiator acceptor : NoiseConn κ)
    (h : Completed S psk a b initiator acceptor) :
    initiator.pad = acceptor.pad ∧
    ∀ limit s, Reach (step S.toAead) Any (.initial initiator acceptor limit) s → ∀ side,
      (s.ends !side).returned <+: (s.ends side).written ∧
      ((∀ w ∈ (s.ends side).writes, w.err = none) → (s.ends side).out.bytes = [] → (s.ends !side).conn.readBuf = [] →
        (s.ends !side).returned = (s.ends side).written) ∧
      (∀ m ∈ (s.ends side).frames, m.length ≤ 65535) ∧
      (∀ w ∈ (s.ends side).writes, w.err = none → w.n = w.p.length) ∧
      (∀ x ∈ (s.ends !side).readErrors, EndsWith x.1 x.2) ∧
      ∀ n ending, 0 < n →
        (∃ data c r, (s.ends !side).conn.read S.toAead n ⟨(s.ends side).out.bytes, ending⟩ = .ok (data, c, r) ∧
          data ≠ []) ∨
        ((∀ w ∈ (s.ends side).writes, w.err = none) → (s.ends !side).returned = (s.ends side).written) := by
  obtain ⟨pad, k₀, k₁, rfl, rfl⟩ := h.fresh
  refine ⟨rfl, fun limit s hs side => ?_⟩
  have hinv : Inv S.toAead s := by
    refine hs.invariant ?_ fun s act s' h _ hs => step_inv h hs
    apply inv_of_side true
    · exact Sound.fresh S.toAead pad k₀ k₁ (limit true) (limit false)
    · exact Sound.fresh S.toAead pad k₁ k₀ (limit false) (limit true)
  have hsound := hinv side
  refine ⟨hsound.returned_prefix, hsound.returned_eq, hsound.frames, hsound.writes, hsound.errors, ?_⟩
  intro n ending hn
  rcases hsound.read n ending with ⟨data, recv, readBuf, rest, hread, -, hdata⟩ | ⟨err, -, -, hall⟩
  · exact .inl ⟨data, _, _, hread, hdata hn⟩
  · exact .inr hall

def plainSuite : Suite Unit Unit where
  encrypt _ _ p := p ++ List.replicate 16 0
  decrypt _ _ c := some (c.take (c.length - 16))
  decrypt_encrypt _ _ p := by simp
  length_encrypt _ _ p := by simp
  hello _ _ p := 0 :: p
  readHello _ m := .ok (m.drop 1)
  answer _ _ _ q := (0 :: q, (), ())
  readAnswer _ _ _ m := .ok (m.drop 1, (), ())
  readHello_hello _ _ _ := rfl
  readAnswer_answer _ _ _ _ _ := rfl

theorem stealth_is_transparent_padded :
    ∃ initiator acceptor, Completed plainSuite [] .current .current initiator acceptor ∧ initiator.pad = true ∧
      acceptor.pad = true ∧ ∃ s, Reach (step plainSuite.toAead) Any (.initial initiator acceptor fun _ => none) s ∧
        (s.ends false).returned = lit "hell" ∧ (s.ends false).returned <+: (s.ends true).written := by
  let conn : NoiseConn Unit := ⟨true, ⟨(), 0⟩, [], ⟨(), 0⟩, []⟩
  have hc : Completed plainSuite [] .current .current conn conn :=
    ⟨(), (), ⟨[], none⟩, ⟨[], none⟩, ⟨[0, 2, 0, 1], none⟩, ⟨[0, 2, 0, 1], none⟩, .eof, .eof, ⟨[], .eof⟩, ⟨[], .eof⟩,
      rfl, rfl, rfl, rfl, rfl⟩
  obtain ⟨hpad, hrun⟩ := stealth_is_transparent plainSuite [] .current .current conn conn hc
  obtain ⟨s, hs, hret⟩ : ∃ s, Reach (step plainSuite.toAead) Any (.initial conn conn fun _ => none) s ∧
      (s.ends false).returned = lit "hell" := exists_reach
    [.write true (lit "he") fun _ => 200, .write true (lit "llo") fun _ => 0, .read false 1 .eof, .read false 9 .eof,
      .read false 2 .eof] (by decide +kernel)
  exact ⟨conn, conn, hc, rfl, hpad ▸ rfl, s, hs, hret, (hrun _ s hs true).1⟩

end ArangeTun.Stealth
