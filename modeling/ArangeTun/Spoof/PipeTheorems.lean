import ArangeTun.Spoof.Pipe

/-! # What the pipe sheds, and who has its buffers -/

namespace ArangeTun.Spoof.Pipe

open Go Transition List Option State ReaderPc

variable {learnPeer : Bool} {s s' : State}

/-! ## What a step does -/

/-- The steps, without those fields that neither the queue nor the buffers depend on. -/
inductive Step (s : State) : State → Prop
  | other {cancelled peer : Bool} {errc : Chan Error 2} {uplink : UplinkPc} {main : MainPc} :
      Step s { s with cancelled, peer, errc, uplink, main }
  | done (h : s.writer = .waiting) : Step s { s with writer := .returned }
  | collect {b : Nat} (hb : b ∈ s.pool) : Step s { s with pool := s.pool.erase b, collected := b :: s.collected }
  | make (h : s.reader = .getting) :
      Step s { s with
        reader := .reading s.made
        made := s.made + 1
        mem := Function.update s.mem s.made (List.replicate bufSize 0) }
  | reuse {b : Nat} (h : s.reader = .getting) (hb : b ∈ s.pool) :
      Step s { s with reader := .reading b, pool := s.pool.erase b }
  | readFrom {b : Nat} {data : Str} (h : s.reader = .reading b) :
      Step s { s with
        reader := .sending ⟨b, data.length, s.read.length⟩
        mem := fill s.mem b data
        read := s.read ++ [⟨s.read.length, data⟩] }
  | readFails {b : Nat} {err : Error} (h : s.reader = .reading b) : Step s { s with reader := .failing b err }
  | report {b : Nat} {err : Error} {errc : Chan Error 2} (h : s.reader = .failing b err) :
      Step s { s with reader := .returned b, errc := errc }
  | enqueue {p : Pkt} {q : Chan Pkt queueDepth} (h : s.reader = .sending p ∨ s.reader = .resending p)
      (hq : q.buf = s.q.buf ++ [p]) : Step s { s with reader := .getting, q := q }
  | full {p : Pkt} (h : s.reader = .sending p) : Step s { s with reader := .shedding p }
  | shed {p old : Pkt} {q : Chan Pkt queueDepth} (h : s.reader = .shedding p) (hq : s.q.buf = old :: q.buf) :
      Step s { s with reader := .putting old p, q := q }
  | empty {p : Pkt} (h : s.reader = .shedding p) (hq : s.q.buf = []) : Step s { s with reader := .resending p }
  | putOld {old p : Pkt} (h : s.reader = .putting old p) :
      Step s { s with reader := .resending p, pool := old.buf :: s.pool }
  | discard {p : Pkt} (h : s.reader = .resending p) (hq : queueDepth ≤ s.q.buf.length) :
      Step s { s with reader := .discarding p }
  | putNew {p : Pkt} (h : s.reader = .discarding p) : Step s { s with reader := .getting, pool := p.buf :: s.pool }
  | take {p : Pkt} {q : Chan Pkt queueDepth} (h : s.writer = .waiting) (hq : s.q.buf = p :: q.buf) :
      Step s { s with writer := .writing p, q := q, taken := s.taken ++ [datagram s.mem p] }
  | write {p : Pkt} {written : List Datagram} (h : s.writer = .writing p)
      (hw : written = s.written ∨ written = s.written ++ [datagram s.mem p]) :
      Step s { s with writer := .putting p, written := written }
  | put {p : Pkt} (h : s.writer = .putting p) : Step s { s with writer := .waiting, pool := p.buf :: s.pool }

theorem step_sound {a : Action} (h : step learnPeer s a = some s') : Step s s' := by
  cases a with
  | cancel =>
    cases h
    exact .other
  | collect b =>
    obtain ⟨hb, rfl⟩ := enabled h
    exact .collect hb
  | get b =>
    cases b with
    | none =>
      obtain ⟨hr, rfl⟩ := enabled h
      exact .make hr
    | some b =>
      obtain ⟨⟨hr, hb⟩, rfl⟩ := enabled h
      exact .reuse hr hb
  | readFrom data =>
    simp only [step] at h
    split at h
    · rename_i b hr
      obtain ⟨_, rfl⟩ := enabled h
      exact .readFrom hr
    · cases h
  | readFails err =>
    simp only [step] at h
    split at h
    · rename_i b hr
      cases h
      exact .readFails hr
    · cases h
  | report =>
    simp only [step] at h
    split at h
    · rename_i b err hr
      obtain ⟨errc, _, rfl⟩ := map_eq_some_iff.mp h
      exact .report hr
    · cases h
  | send =>
    simp only [step] at h
    split at h
    · rename_i p hr
      split at h <;> cases h
      · rename_i q hq
        exact .enqueue (.inl hr) (Chan.trySend_eq_some hq).2
      · exact .full hr
    · cases h
  | shed =>
    simp only [step] at h
    split at h
    · rename_i p hr
      split at h <;> cases h
      · rename_i old q hq
        exact .shed hr (Chan.tryRecv_eq_some hq)
      · rename_i hq
        exact .empty hr (Chan.tryRecv_eq_none hq)
    · cases h
  | putOld =>
    simp only [step] at h
    split at h
    · rename_i old p hr
      cases h
      exact .putOld hr
    · cases h
  | resend =>
    simp only [step] at h
    split at h
    · rename_i p hr
      split at h <;> cases h
      · rename_i q hq
        exact .enqueue (.inr hr) (Chan.trySend_eq_some hq).2
      · rename_i hq
        exact .discard hr (Chan.trySend_eq_none hq)
    · cases h
  | putNew =>
    simp only [step] at h
    split at h
    · rename_i p hr
      cases h
      exact .putNew hr
    · cases h
  | done =>
    obtain ⟨⟨hw, _⟩, rfl⟩ := enabled h
    exact .done hw
  | take =>
    obtain ⟨hw, h⟩ := ite_none_right_eq_some.mp h
    obtain ⟨⟨p, q⟩, hq, rfl⟩ := map_eq_some_iff.mp h
    exact .take hw (Chan.tryRecv_eq_some hq)
  | write =>
    simp only [step] at h
    split at h
    · rename_i p hw
      split at h <;> cases h
      · exact .write hw (.inl rfl)
      · exact .write hw (.inr rfl)
    · cases h
  | put =>
    simp only [step] at h
    split at h
    · rename_i p hw
      cases h
      exact .put hw
    · cases h
  | readUDP data addr =>
    obtain ⟨_, rfl⟩ := enabled h
    exact .other
  | readUDPFails err =>
    obtain ⟨_, rfl⟩ := enabled h
    exact .other
  | writeSpoof err =>
    simp only [step] at h
    split at h <;> cases h
    exact .other
  | reportUDP =>
    simp only [step] at h
    split at h
    · obtain ⟨errc, _, rfl⟩ := map_eq_some_iff.mp h
      exact .other
    · cases h
  | leave =>
    obtain ⟨_, rfl⟩ := enabled h
    exact .other
  | fail =>
    obtain ⟨_, h⟩ := ite_none_right_eq_some.mp h
    obtain ⟨r, _, rfl⟩ := map_eq_some_iff.mp h
    exact .other

/-! ## The invariant -/

def WriterPc.writes : WriterPc → List Pkt
  | writing p => [p]
  | _ => []

structure Inv (s : State) : Prop where
  own : ∀ b, s.places b + s.collected.count b = if b < s.made then 1 else 0
  line : (s.taken ++ (s.q.buf ++ s.reader.pending).map (datagram s.mem)).Sublist s.read
  out : (s.written ++ s.writer.writes.map (datagram s.mem)).Sublist s.taken
  seqs : s.read.map Datagram.seq = List.range s.read.length
  newest : ∀ p ∈ s.reader.pending, p.seq + 1 = s.read.length
  older : ∀ old p, s.reader = .putting old p → old.seq < p.seq
  room : ∀ p, (s.reader = .resending p ∨ ∃ old, s.reader = .putting old p) → s.q.buf.length < queueDepth
  kept : ∀ p, s.reader ≠ .discarding p

theorem count_of_mem {l : List Nat} {c : Nat} (hc : c ∈ l) (b : Nat) : l.count b = (c :: l.erase c).count b :=
  (perm_cons_erase hc).count_eq b

theorem own_step (hi : Inv s) (h : Step s s') (b : Nat) :
    s'.places b + s'.collected.count b = if b < s'.made then 1 else 0 := by
  have ho := hi.own b
  cases h with
  | other => exact ho
  | done hw => simpa [places, hw, WriterPc.held] using ho
  | collect hb =>
    simp only [places, count_of_mem hb, count_cons] at ho ⊢
    omega
  | make hr =>
    simp only [places, hr, held, count_cons, count_nil, beq_iff_eq] at ho ⊢
    split at ho <;> split <;> split <;> omega
  | reuse hr hb =>
    simp only [places, hr, held, count_of_mem hb, count_cons, count_nil] at ho ⊢
    omega
  | readFrom hr => simpa [places, hr, held] using ho
  | readFails hr => simpa [places, hr, held] using ho
  | report hr => simpa [places, hr, held] using ho
  | enqueue hr hq =>
    rcases hr with hr | hr <;> simp [places, hr, held, hq, count_cons] at ho ⊢ <;> omega
  | full hr => simpa [places, hr, held] using ho
  | shed hr hq =>
    simp [places, hr, held, hq, count_cons] at ho ⊢
    omega
  | empty hr hq => simpa [places, hr, held] using ho
  | putOld hr =>
    simp [places, hr, held, count_cons] at ho ⊢
    omega
  | discard hr hq => simpa [places, hr, held] using ho
  | putNew hr =>
    simp [places, hr, held, count_cons] at ho ⊢
    omega
  | take hw hq =>
    simp [places, hw, WriterPc.held, hq, count_cons] at ho ⊢
    omega
  | write hw hs => simpa [places, hw, WriterPc.held] using ho
  | put hw =>
    simp [places, hw, WriterPc.held, count_cons] at ho ⊢
    omega

theorem apart (hi : Inv s) {b : Nat} (hb : b ∈ s.reader.held ∨ s.made ≤ b) :
    (∀ p ∈ s.q.buf, p.buf ≠ b) ∧ ∀ p ∈ s.writer.held, p.buf ≠ b := by
  have hnone : (s.q.buf.map Pkt.buf).count b + (s.writer.held.map Pkt.buf).count b = 0 := by
    have ho := hi.own b
    unfold places at ho
    rcases hb with hb | hb
    · have hpos := count_pos_iff.mpr hb
      split at ho <;> omega
    · rw [if_neg (by omega)] at ho
      omega
  rw [Nat.add_eq_zero_iff, count_eq_zero, count_eq_zero] at hnone
  refine ⟨fun p hp h => hnone.1 ?_, fun p hp h => hnone.2 ?_⟩
  · exact h ▸ List.mem_map_of_mem hp
  · exact h ▸ List.mem_map_of_mem hp

theorem map_datagram_update {mem : Nat → Str} {b : Nat} {data : Str} {ps : List Pkt} (h : ∀ p ∈ ps, p.buf ≠ b) :
    ps.map (datagram (Function.update mem b data)) = ps.map (datagram mem) :=
  map_congr_left fun p hp => by rw [datagram, Function.update_of_ne (h p hp), datagram]

theorem map_datagram_fill {mem : Nat → Str} {b : Nat} {data : Str} {ps : List Pkt} (h : ∀ p ∈ ps, p.buf ≠ b) :
    ps.map (datagram (fill mem b data)) = ps.map (datagram mem) :=
  map_datagram_update h

theorem datagram_fill (mem : Nat → Str) (b seq : Nat) (data : Str) :
    datagram (fill mem b data) ⟨b, data.length, seq⟩ = ⟨seq, data⟩ := by
  simp [datagram, fill]

theorem line_step (hi : Inv s) (h : Step s s') :
    (s'.taken ++ (s'.q.buf ++ s'.reader.pending).map (datagram s'.mem)).Sublist s'.read := by
  have hl := hi.line
  cases h with
  | other => exact hl
  | done hw => exact hl
  | collect hb => exact hl
  | make hr =>
    have hq := (apart hi (.inr (Nat.le_refl s.made))).1
    simpa [hr, pending, map_datagram_update hq] using hl
  | reuse hr hb => simpa [hr, pending] using hl
  | @readFrom b data hr =>
    have hq := (apart hi (b := b) (.inl (by simp [hr, held]))).1
    have hnew := hl.append_right [⟨s.read.length, data⟩]
    simpa [hr, pending, datagram_fill, map_datagram_fill hq] using hnew
  | readFails hr => simpa [hr, pending] using hl
  | report hr => simpa [hr, pending] using hl
  | enqueue hr hq =>
    rw [hq]
    rcases hr with hr | hr <;> simpa [hr, pending] using hl
  | full hr => simpa [hr, pending] using hl
  | shed hr hq =>
    rw [hq] at hl
    simp only [hr, pending, cons_append, map_cons] at hl ⊢
    exact ((sublist_cons_self ..).append_left _).trans hl
  | empty hr hq => simpa [hr, pending] using hl
  | putOld hr => simpa [hr, pending] using hl
  | discard hr hq => simpa [hr, pending] using hl
  | putNew hr => exact absurd hr (hi.kept _)
  | take hw hq =>
    rw [hq] at hl
    simpa using hl
  | write hw hs => exact hl
  | put hw => exact hl

theorem writes_held {w : WriterPc} {p : Pkt} (h : p ∈ w.writes) : p ∈ w.held := by
  cases w <;> simp_all [WriterPc.writes, WriterPc.held]

theorem out_step (hi : Inv s) (h : Step s s') :
    (s'.written ++ s'.writer.writes.map (datagram s'.mem)).Sublist s'.taken := by
  have ho := hi.out
  cases h with
  | other => exact ho
  | done hw => simpa [hw, WriterPc.writes] using ho
  | collect hb => exact ho
  | make hr =>
    have hw := (apart hi (.inr (Nat.le_refl s.made))).2
    simpa [map_datagram_update fun p hp => hw p (writes_held hp)] using ho
  | reuse hr hb => exact ho
  | @readFrom b data hr =>
    have hw := (apart hi (b := b) (.inl (by simp [hr, held]))).2
    simpa [map_datagram_fill fun p hp => hw p (writes_held hp)] using ho
  | readFails hr => exact ho
  | report hr => exact ho
  | enqueue hr hq => exact ho
  | full hr => exact ho
  | shed hr hq => exact ho
  | empty hr hq => exact ho
  | putOld hr => exact ho
  | discard hr hq => exact ho
  | putNew hr => exact ho
  | take hw hq =>
    simp only [hw, WriterPc.writes, map_nil, append_nil] at ho
    exact ho.append_right _
  | write hw hs =>
    simp only [hw, WriterPc.writes, map_cons, map_nil] at ho
    rcases hs with rfl | rfl
    · simpa [WriterPc.writes] using (sublist_append_left ..).trans ho
    · simpa [WriterPc.writes] using ho
  | put hw => simpa [hw, WriterPc.writes] using ho

theorem pairwise_line (hi : Inv s) : (s.q.buf ++ s.reader.pending).Pairwise fun p p' => p.seq < p'.seq := by
  have hsub := ((sublist_append_right ..).trans hi.line).map Datagram.seq
  rw [hi.seqs, List.map_map] at hsub
  exact pairwise_map.mp (pairwise_lt_range.sublist hsub)

theorem seqs_step (hi : Inv s) (h : Step s s') : s'.read.map Datagram.seq = List.range s'.read.length := by
  have hs := hi.seqs
  cases h with
  | readFrom hr => simp [hs, range_succ]
  | _ => exact hs

theorem newest_step (hi : Inv s) (h : Step s s') : ∀ p ∈ s'.reader.pending, p.seq + 1 = s'.read.length := by
  have hn := hi.newest
  cases h with
  | other => exact hn
  | done hw => exact hn
  | collect hb => exact hn
  | make hr => simp [pending]
  | reuse hr hb => simp [pending]
  | readFrom hr => simp [pending]
  | readFails hr => simp [pending]
  | report hr => simp [pending]
  | enqueue hr hq => simp [pending]
  | full hr => simpa [hr, pending] using hn
  | shed hr hq => simpa [hr, pending] using hn
  | empty hr hq => simpa [hr, pending] using hn
  | putOld hr => simpa [hr, pending] using hn
  | discard hr hq => simpa [hr, pending] using hn
  | putNew hr => simp [pending]
  | take hw hq => exact hn
  | write hw hs => exact hn
  | put hw => exact hn

theorem older_step (hi : Inv s) (h : Step s s') : ∀ old p, s'.reader = .putting old p → old.seq < p.seq := by
  cases h with
  | @shed p old q hr hq =>
    have hline := pairwise_line hi
    rw [hq, hr, cons_append, pairwise_cons] at hline
    intro old' p' h
    cases h
    exact hline.1 p (by simp [pending])
  | other => exact hi.older
  | done hw => exact hi.older
  | collect hb => exact hi.older
  | take hw hq => exact hi.older
  | write hw hs => exact hi.older
  | put hw => exact hi.older
  | _ => exact fun _ _ h => nomatch h

theorem length_lt_of_cons {q q' : Chan Pkt queueDepth} {p : Pkt} (h : q.buf = p :: q'.buf) :
    q'.buf.length < queueDepth := by
  have hle := q.length_le
  rw [h, length_cons] at hle
  exact hle

theorem room_step (hi : Inv s) (h : Step s s') :
    ∀ p, (s'.reader = .resending p ∨ ∃ old, s'.reader = .putting old p) → s'.q.buf.length < queueDepth := by
  cases h with
  | shed hr hq => exact fun _ _ => length_lt_of_cons hq
  | empty hr hq => exact fun _ _ => by simp [hq, queueDepth]
  | @putOld old p hr => exact fun _ _ => hi.room p (.inr ⟨old, hr⟩)
  | take hw hq => exact fun _ _ => length_lt_of_cons hq
  | other => exact hi.room
  | done hw => exact hi.room
  | collect hb => exact hi.room
  | write hw hs => exact hi.room
  | put hw => exact hi.room
  | _ => simp

theorem kept_step (hi : Inv s) (h : Step s s') : ∀ p, s'.reader ≠ .discarding p := by
  cases h with
  | @discard p hr hq => exact absurd (hi.room p (.inl hr)) (Nat.not_lt.mpr hq)
  | other => exact hi.kept
  | done hw => exact hi.kept
  | collect hb => exact hi.kept
  | take hw hq => exact hi.kept
  | write hw hs => exact hi.kept
  | put hw => exact hi.kept
  | _ => simp

theorem Inv.init : Inv initial where
  own b := by simp [State.places, initial, ReaderPc.held, WriterPc.held]
  line := List.Sublist.refl _
  out := List.Sublist.refl _
  seqs := rfl
  newest := by simp [initial, ReaderPc.pending]
  older := by simp [initial]
  room := by simp [initial]
  kept := by simp [initial]

theorem Inv.step (hi : Inv s) (h : Step s s') : Inv s' where
  own := own_step hi h
  line := line_step hi h
  out := out_step hi h
  seqs := seqs_step hi h
  newest := newest_step hi h
  older := older_step hi h
  room := room_step hi h
  kept := kept_step hi h

theorem Inv.of_reach (h : Reach (Pipe.step learnPeer) Any initial s) : Inv s :=
  h.invariant .init fun _ _ _ hi _ hs => hi.step (step_sound hs)

/-- What holds at every moment, with the packet that the reader drops, if it is at that point. -/
structure ShedsOldest (s : State) : Prop where
  taken : s.taken.Sublist s.read
  written : s.written.Sublist s.taken
  newest_kept : ∀ p, s.reader ≠ .discarding p
  dropped_older : ∀ old p, s.reader = .putting old p → old.seq < p.seq ∧ p.seq + 1 = s.read.length
  depth : s.q.buf.length ≤ 1024
  one_place : ∀ b < s.made, b ∉ s.collected → s.places b = 1

theorem shedsOldest_of_reach (h : Reach (step learnPeer) Any initial s) : ShedsOldest s := by
  have hi := Inv.of_reach h
  refine ⟨(sublist_append_left ..).trans hi.line, (sublist_append_left ..).trans hi.out, hi.kept, ?_,
    s.q.length_le, ?_⟩
  · intro old p hr
    exact ⟨hi.older old p hr, hi.newest p (by simp [hr, pending])⟩
  · intro b hb hc
    simpa [hb, count_eq_zero.mpr hc] using hi.own b

/-- The reader gets a buffer and reads a datagram into it, whatever the others do. -/
theorem exists_sending (h : Reach (step false) Any initial s) (hs : s.reader = .getting) :
    ∃ s' p, Reach (step false) Any initial s' ∧ s'.reader = .sending p ∧ s'.q = s.q := by
  have hget : ∃ s₁, step false s (.get none) = some s₁ ∧ s₁.reader = .reading s.made ∧ s₁.q = s.q := by
    simp [step, hs]
  obtain ⟨s₁, hstep₁, hreading, hq₁⟩ := hget
  have hread : ∃ s₂ p, step false s₁ (.readFrom []) = some s₂ ∧ s₂.reader = .sending p ∧ s₂.q = s₁.q := by
    simp [step, hreading]
  obtain ⟨s₂, p, hstep₂, hsending, hq₂⟩ := hread
  exact ⟨s₂, p, .next (.next h trivial hstep₁) trivial hstep₂, hsending, hq₂.trans hq₁⟩

/-- While nothing is taken from the queue it fills up. -/
theorem exists_queued {n : Nat} (hn : n ≤ queueDepth) :
    ∃ s, Reach (step false) Any initial s ∧ s.reader = .getting ∧ s.q.buf.length = n := by
  induction n with
  | zero => exact ⟨initial, .init, rfl, rfl⟩
  | succ n ih =>
    obtain ⟨s, hs, hgetting, hlen⟩ := ih (Nat.le_of_succ_le hn)
    obtain ⟨s', p, hs', hsending, hq⟩ := exists_sending hs hgetting
    obtain ⟨q, hsend, hbuf⟩ := Chan.exists_trySend (a := p) (c := s'.q) (by rw [hq, hlen]; exact hn)
    have hstep : step false s' .send = some { s' with reader := .getting, q := q } := by
      simp [step, hsending, hsend]
    refine ⟨_, .next hs' trivial hstep, rfl, ?_⟩
    show q.buf.length = n + 1
    rw [hbuf, List.length_append, hq, hlen]
    rfl

/-- The queue is full, and the reader has taken the oldest packet out of it. -/
theorem shedsOldest_full : ∃ s, Reach (step false) Any initial s ∧
    (∃ old p, s.reader = .putting old p ∧ old.seq < p.seq) ∧ ShedsOldest s := by
  obtain ⟨s, hs, hgetting, hlen⟩ := exists_queued le_rfl
  obtain ⟨s₁, p, hs₁, hsending, hq⟩ := exists_sending hs hgetting
  have hfull : s₁.q.trySend p = none := dif_neg (by rw [hq, hlen]; exact lt_irrefl _)
  have hsend : step false s₁ .send = some { s₁ with reader := .shedding p } := by simp [step, hsending, hfull]
  obtain ⟨⟨old, q⟩, hrecv⟩ : ∃ r, s₁.q.tryRecv = some r :=
    Option.ne_none_iff_exists'.mp fun hnone => by
      have hempty := Chan.tryRecv_eq_none hnone
      rw [hq] at hempty
      rw [hempty] at hlen
      cases hlen
  have hshed : step false { s₁ with reader := .shedding p } .shed =
      some { s₁ with reader := .putting old p, q := q } := by
    simp [step, hrecv]
  have hreach := Reach.next (.next hs₁ trivial hsend) trivial hshed
  have hsheds := shedsOldest_of_reach hreach
  exact ⟨_, hreach, ⟨old, p, rfl, (hsheds.dropped_older old p rfl).1⟩, hsheds⟩

end ArangeTun.Spoof.Pipe
