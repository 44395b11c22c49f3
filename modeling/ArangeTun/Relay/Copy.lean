import ArangeTun.Relay.Model

/-! # The buffered copy -/

namespace ArangeTun.Relay

open Go List Option

def transferRun : TransferPc → List TransferEvent → Option (Str × TransferPc)
  | pc, [] => some ([], pc)
  | pc, e :: es => do
      let r ← transferStep pc e
      let r' ← transferRun r.2 es
      some (r.1 ++ r'.1, r'.2)

def TransferEvent.data : TransferEvent → Str
  | .read data _ => data
  | .write _ _ => []

def TransferEvent.lost : TransferEvent → Str
  | .read data (some _) => data
  | .read _ none | .write _ _ => []

def TransferEvent.isWrite : TransferEvent → Bool
  | .write _ _ => true
  | .read _ _ => false

def received (es : List TransferEvent) : Str := es.flatMap TransferEvent.data

def Separate (es : List TransferEvent) : Prop :=
  ∀ (data : Str) (err : Error), .read data (some err) ∈ es → data = []

def TransferPc.pending : TransferPc → Str
  | .writing rest => rest
  | .reading | .readFailed _ | .writeFailed _ => []

variable {pc pc' : TransferPc} {e : TransferEvent} {es : List TransferEvent} {out written : Str}

@[simp] theorem TransferPc.pending_reading : TransferPc.reading.pending = [] := rfl

@[simp] theorem TransferPc.pending_writing (rest : Str) : (TransferPc.writing rest).pending = rest := rfl

@[simp] theorem TransferPc.pending_readFailed (err : Error) : (TransferPc.readFailed err).pending = [] := rfl

@[simp] theorem TransferPc.pending_writeFailed (err : Error) : (TransferPc.writeFailed err).pending = [] := rfl

@[simp] theorem TransferPc.pending_next (rest : Str) : (TransferPc.next rest).pending = rest := by
  unfold TransferPc.next
  split
  · rename_i h
    rw [h]
    rfl
  · rfl

theorem transferRun_cons (h : transferRun pc (e :: es) = some (written, pc')) :
    ∃ out pc₁ rest, transferStep pc e = some (out, pc₁) ∧ transferRun pc₁ es = some (rest, pc') ∧
      written = out ++ rest := by
  simp only [transferRun, bind_eq_bind, bind_eq_some_iff, Option.some.injEq, Prod.mk.injEq] at h
  obtain ⟨⟨out, pc₁⟩, hstep, ⟨rest, pc₂⟩, hrest, rfl, rfl⟩ := h
  exact ⟨out, pc₁, rest, hstep, hrest, rfl⟩

theorem transferStep_pending (h : transferStep pc e = some (out, pc')) :
    (∃ err, pc' = .writeFailed err) ∨ pc.pending ++ e.data = out ++ pc'.pending ++ e.lost := by
  cases pc with
  | reading =>
    cases e with
    | read data err =>
      cases err with
      | none =>
        cases h
        simp [TransferEvent.data, TransferEvent.lost]
      | some err =>
        cases h
        simp [TransferEvent.data, TransferEvent.lost]
    | write => cases h
  | writing rest =>
    cases e with
    | read => cases h
    | write n err =>
      cases err with
      | none =>
        simp only [transferStep, ite_none_right_eq_some, Option.some.injEq, Prod.mk.injEq] at h
        obtain ⟨-, rfl, rfl⟩ := h
        simp [TransferEvent.data, TransferEvent.lost]
      | some err =>
        simp only [transferStep, ite_none_right_eq_some, Option.some.injEq, Prod.mk.injEq] at h
        exact .inl ⟨err, h.2.2.symm⟩
  | readFailed | writeFailed => cases h

theorem transferStep_out (h : transferStep pc e = some (out, pc')) : out <+: pc.pending ++ e.data := by
  cases pc with
  | reading =>
    cases e with
    | read data err =>
      have hout : out = [] := by
        cases err <;> simp only [transferStep, Option.some.injEq, Prod.mk.injEq] at h
        · exact h.1.symm
        · exact h.1.symm
      rw [hout]
      exact nil_prefix
    | write => cases h
  | writing rest =>
    cases e with
    | read => cases h
    | write n err =>
      have hout : out = rest.take n := by
        cases err <;>
          simp only [transferStep, ite_none_right_eq_some, Option.some.injEq, Prod.mk.injEq] at h
        · exact h.2.1.symm
        · exact h.2.1.symm
      rw [hout]
      have htake : rest.take n <+: rest := take_prefix n rest
      exact htake.trans (prefix_append ..)
  | readFailed | writeFailed => cases h

theorem transferRun_failed (hfailed : ∀ e, transferStep pc e = none) (h : transferRun pc es = some (written, pc')) :
    es = [] ∧ written = [] ∧ pc' = pc := by
  cases es with
  | nil =>
    cases h
    exact ⟨rfl, rfl, rfl⟩
  | cons e es =>
    obtain ⟨_, _, _, hstep, -⟩ := transferRun_cons h
    rw [hfailed e] at hstep
    cases hstep

theorem transferRun_pending (h : transferRun pc es = some (written, pc')) (hwrites : ∀ err, pc' ≠ .writeFailed err) :
    pc.pending ++ received es = written ++ pc'.pending ++ es.flatMap TransferEvent.lost := by
  induction es generalizing pc written with
  | nil =>
    cases h
    simp [received]
  | cons e es ih =>
    obtain ⟨out, pc₁, rest, hstep, hrest, rfl⟩ := transferRun_cons h
    rcases transferStep_pending hstep with ⟨err, rfl⟩ | hpending
    · obtain ⟨-, -, rfl⟩ := transferRun_failed (fun _ => rfl) hrest
      exact absurd rfl (hwrites err)
    · have hrun := ih hrest
      simp only [received, flatMap_cons] at hrun ⊢
      cases hlost : e.lost with
      | nil =>
        rw [hlost, append_nil] at hpending
        rw [← append_assoc, hpending, append_assoc out, hrun]
        simp only [append_assoc, nil_append]
      | cons b bs =>
        -- a read that lost bytes was the last call
        obtain ⟨err, rfl⟩ : ∃ err, pc₁ = .readFailed err := by
          cases e with
          | read data err =>
            cases err with
            | none => cases hlost
            | some err =>
              cases pc <;> cases hstep
              exact ⟨err, rfl⟩
          | write => cases hlost
        obtain ⟨rfl, rfl, rfl⟩ := transferRun_failed (fun _ => rfl) hrest
        simpa [hlost] using hpending

theorem lost_eq_nil_iff : es.flatMap TransferEvent.lost = [] ↔ Separate es := by
  rw [flatMap_eq_nil_iff]
  constructor
  · exact fun h data err hmem => h _ hmem
  · intro h e hmem
    cases e with
    | read data err =>
      cases err with
      | none => rfl
      | some err => exact h data err hmem
    | write => rfl

theorem transferStep_writes (h : transferStep pc e = some (out, pc')) (hpos : ∀ n err, e = .write n err → 0 < n) :
    e.isWrite.toNat + pc'.pending.length ≤ pc.pending.length + e.data.length := by
  cases pc with
  | reading =>
    cases e with
    | read data err =>
      cases err with
      | none =>
        cases h
        simp [TransferEvent.isWrite, TransferEvent.data]
      | some err =>
        cases h
        simp [TransferEvent.isWrite]
    | write => cases h
  | writing rest =>
    cases e with
    | read => cases h
    | write n err =>
      have hn := hpos n err rfl
      cases err with
      | none =>
        simp only [transferStep, ite_none_right_eq_some, Option.some.injEq, Prod.mk.injEq] at h
        obtain ⟨hle, rfl, rfl⟩ := h
        simp only [TransferEvent.isWrite, TransferPc.pending_next, TransferPc.pending_writing, TransferEvent.data,
          length_drop, length_nil, Bool.toNat_true]
        omega
      | some err =>
        simp only [transferStep, ite_none_right_eq_some, Option.some.injEq, Prod.mk.injEq] at h
        obtain ⟨hle, rfl, rfl⟩ := h
        simp only [TransferEvent.isWrite, TransferPc.pending_writeFailed, TransferPc.pending_writing,
          TransferEvent.data, length_nil, Bool.toNat_true]
        omega
  | readFailed | writeFailed => cases h

theorem transferRun_writes (h : transferRun pc es = some (written, pc')) (hpos : ∀ n err, .write n err ∈ es → 0 < n) :
    es.countP TransferEvent.isWrite + pc'.pending.length ≤ pc.pending.length + (received es).length := by
  induction es generalizing pc written with
  | nil =>
    cases h
    simp
  | cons e es ih =>
    obtain ⟨out, pc₁, rest, hstep, hrest, rfl⟩ := transferRun_cons h
    have hone := transferStep_writes hstep fun n err he => hpos n err (by rw [he]; exact mem_cons_self)
    have hmany := ih hrest fun n err hmem => hpos n err (mem_cons_of_mem _ hmem)
    have hcount : (e :: es).countP TransferEvent.isWrite = es.countP TransferEvent.isWrite + e.isWrite.toNat := by
      rw [countP_cons]
      cases e.isWrite <;> rfl
    rw [received, flatMap_cons, length_append, hcount]
    rw [received] at hmany
    omega

/-- When the loop closes the two connections after a read that failed, it has written every byte that was read, in order
and once, exactly if no read returned bytes with its error. -/
theorem copy_conserves (h : transferRun .reading es = some (written, pc)) :
    (∀ err, pc = .readFailed err → (written = received es ↔ Separate es)) ∧
      ((∀ n err, .write n err ∈ es → 0 < n) → es.countP TransferEvent.isWrite ≤ (received es).length) := by
  constructor
  · rintro err rfl
    have hrun := transferRun_pending h fun _ => TransferPc.noConfusion
    simp only [TransferPc.pending_reading, TransferPc.pending_readFailed, nil_append, append_nil] at hrun
    rw [← lost_eq_nil_iff, hrun, self_eq_append_right]
  · intro hpos
    have := transferRun_writes h hpos
    simp only [TransferPc.pending_reading, length_nil] at this
    omega

/-- A read of five bytes that are written in two parts, and the end of the stream. -/
theorem copy_conserves_twoParts :
    let es : List TransferEvent :=
      [.read (lit "hello") none, .write 2 none, .write 3 none, .read [] (some .eof)]
    transferRun .reading es = some (lit "hello", .readFailed .eof) ∧ Separate es ∧ lit "hello" = received es := by
  have hrun : transferRun .reading [.read (lit "hello") none, .write 2 none, .write 3 none, .read [] (some .eof)] =
      some (lit "hello", .readFailed .eof) := by decide
  have hsep : Separate [.read (lit "hello") none, .write 2 none, .write 3 none, .read [] (some .eof)] := by
    rw [← lost_eq_nil_iff]
    decide
  exact ⟨hrun, hsep, ((copy_conserves hrun).1 .eof rfl).mpr hsep⟩

/-- The last bytes of a QUIC stream come with its end, and are dropped. -/
theorem tail_with_eof_is_lost :
    let es : List TransferEvent := [.read (lit "bye") (some .eof)]
    transferRun .reading es = some ([], .readFailed .eof) ∧ received es = lit "bye" := by
  decide

end ArangeTun.Relay
