import ArangeTun.UdpForward.Lemmas.Step
import ArangeTun.UdpForward.Write

/-! # Framed datagrams through a flow -/

namespace ArangeTun.UdpForward

open Go Transition Framing List Option

/-! ## Frames -/

theorem decodes_datagram {d : Str} {len : Nat} (hd : d.length ≤ 65535) (hlen : 65535 ≤ len) :
    Decodes (readDatagram len) (frame d) d := by
  refine Decodes.bind (Decodes.take (sizeHeader d)) ?_
  simp only [toNat_sizeHeader hd]
  rw [if_neg (by omega)]
  split
  next hzero =>
    rw [length_eq_zero_iff.mp hzero]
    exact .ret []
  next => exact .take d

theorem foldlM_writeDatagram {ds : List Str} (hds : ∀ d ∈ ds, d.length ≤ 65535) (bytes : Str) :
    ds.foldlM writeDatagram ⟨bytes, none⟩ = .ok ⟨bytes ++ ds.flatMap frame, none⟩ := by
  induction ds generalizing bytes with
  | nil => simp [pure, Except.pure]
  | cons d ds ih =>
    rw [forall_mem_cons] at hds
    have hone : writeDatagram ⟨bytes, none⟩ d = .ok ⟨bytes ++ frame d, none⟩ := by
      exact if_neg (Nat.not_lt.mpr hds.1)
    rw [foldlM_cons, hone]
    change ds.foldlM writeDatagram ⟨bytes ++ frame d, none⟩ = _
    rw [ih hds.2, flatMap_cons, append_assoc]

/-! ## `Read` -/

inductive FlowAct
  | deliver (now : Nat) (payload : Str) (queued : Bool)
  | close
  | read (now n : Nat)

def FlowAct.Legal : FlowAct → Prop
  | .deliver _ payload _ => payload.length ≤ maxDatagram
  | .close => True
  | .read _ n => 0 < n

structure FlowLog where
  flow : Flow
  queued : List Str
  pieces : List Str

def flowStep (s : FlowLog) : FlowAct → Option FlowLog
  | .deliver now payload queued =>
    (s.flow.deliver now payload queued).map fun f =>
      { s with flow := f, queued := if queued then s.queued ++ [payload] else s.queued }
  | .close => some { s with flow := { s.flow with phase := .signalled } }
  | .read now n => (s.flow.read now n).map fun r => { s with flow := r.1, pieces := s.pieces ++ r.2.toList }

def flowOpened (now : Nat) (key : Str) : FlowLog := ⟨newUDPFlow now key, [], []⟩

def Flow.Ends (f : Flow) (now n : Nat) : Prop := ∃ f', f.read now n = some (f', none)

def Flow.left (f : Flow) : Str := f.pending ++ f.queue.buf.flatMap frame

/-- The bytes that were returned and those that are left are the frames of the queued datagrams. -/
structure Kept (s : FlowLog) : Prop where
  bytes : s.pieces.flatten ++ s.flow.left = s.queued.flatMap frame
  small : ∀ d ∈ s.queued, d.length ≤ 65535

theorem left_hand (f : Flow) (now n : Nat) (pending : Str) :
    ((f.hand now n pending).2.toList).flatten ++ (f.hand now n pending).1.left =
      pending ++ f.queue.buf.flatMap frame := by
  simp only [Flow.left, Flow.hand, toList_some, flatten_singleton, ← append_assoc,
    take_append_drop]

theorem read_left {f : Flow} {now n : Nat} {r : Flow × Option Str} (h : f.read now n = some r) :
    (r.2.toList).flatten ++ r.1.left = f.left ∧ (r.2 = none → f.left = []) := by
  rcases Flow.read_cases h with rfl | ⟨payload, queue, hpending, hrecv, rfl⟩ | ⟨hpending, hrecv, rfl⟩
  · exact ⟨left_hand f now n f.pending, nofun⟩
  · refine ⟨(left_hand { f with queue } now n (frame payload)).trans ?_, nofun⟩
    rw [Flow.left, hpending, Chan.tryRecv_eq_some hrecv, flatMap_cons, nil_append]
  · refine ⟨rfl, fun _ => ?_⟩
    rw [Flow.left, hpending, Chan.tryRecv_eq_none hrecv]
    rfl

theorem Kept.opened (now : Nat) (key : Str) : Kept (flowOpened now key) := ⟨rfl, nofun⟩

theorem Kept.step {s s' : FlowLog} {a : FlowAct} (h : Kept s) (ha : a.Legal) (hs : flowStep s a = some s') : Kept s' := by
  cases a with
  | deliver now payload queued =>
    obtain ⟨f, hf, rfl⟩ := map_eq_some_iff.mp hs
    rcases Flow.deliver_cases hf with ⟨rfl, rfl⟩ | ⟨rfl, queue, hsend, rfl⟩
    · exact h
    · constructor
      · simp only [if_true, Flow.left, (Chan.trySend_eq_some hsend).2, flatMap_append, flatMap_singleton]
        rw [← h.bytes, Flow.left]
        simp only [append_assoc]
      · simp only [if_true, forall_mem_append, forall_mem_singleton]
        exact ⟨h.small, ha⟩
  | close =>
    cases hs
    exact ⟨h.bytes, h.small⟩
  | read now n =>
    obtain ⟨r, hr, rfl⟩ := map_eq_some_iff.mp hs
    refine ⟨?_, h.small⟩
    rw [flatten_append, append_assoc, (read_left hr).1]
    exact h.bytes

theorem kept_of_reach {now : Nat} {key : Str} {s : FlowLog}
    (h : Reach flowStep (fun _ a => a.Legal) (flowOpened now key) s) : Kept s :=
  h.invariant (.opened now key) fun _ _ _ hkept hlegal hstep => hkept.step hlegal hstep

theorem decodes_at_end {s : FlowLog} {now n len : Nat} (h : Kept s) (hend : s.flow.Ends now n) (hlen : 65535 ≤ len) :
    ∃ conn, (Decoder.all (s.queued.map fun _ => readDatagram len)).run Chunked.readFull ⟨s.pieces, .eof⟩ =
        .ok (s.queued, conn) ∧
      (readDatagram len).run Chunked.readFull conn = .error .eof := by
  obtain ⟨f', hread⟩ := hend
  have hbytes := h.bytes
  rw [(read_left hread).2 rfl, append_nil] at hbytes
  have hdecodes : Decodes (.all (s.queued.map fun _ => readDatagram len)) (s.queued.flatMap frame) s.queued :=
    Decodes.all fun d hd => decodes_datagram (h.small d hd) hlen
  obtain ⟨conn, hrun, hrest, hending⟩ := @Chunked.run_of_decodes _ _ _ [] _ ⟨s.pieces, .eof⟩ hdecodes
    (by rw [hbytes, append_nil])
  refine ⟨conn, hrun, ?_⟩
  have hmap := @Decoder.run_map _ _ _ Chunked.readFull readFull Chunked.joined Chunked.readFull_joined
    (readDatagram len) conn
  rw [Chunked.joined, hrest, hending] at hmap
  cases hconn : (readDatagram len).run Chunked.readFull conn with
  | ok r =>
    rw [hconn] at hmap
    cases hmap
  | error err =>
    rw [hconn] at hmap
    cases hmap
    rfl

theorem read_closed {f : Flow} {now n : Nat} (hdone : f.done = true) (hn : 0 < n) :
    f.Ends now n ∨
      ∃ f' piece, f.read now n = some (f', some piece) ∧ f'.done = true ∧ f'.left.length < f.left.length := by
  have hfewer {f' : Flow} {piece : Str} (hread : f.read now n = some (f', some piece)) (hne : piece ≠ []) :
      f'.left.length < f.left.length := by
    have hsplit : f.left = piece ++ f'.left := by simpa using (read_left hread).1.symm
    have hpos := length_pos_of_ne_nil hne
    rw [hsplit, length_append]
    omega
  by_cases hpending : f.pending = []
  · cases hrecv : f.queue.tryRecv with
    | none =>
      refine .inl ⟨f, ?_⟩
      simp only [Flow.read, hpending, hrecv, hdone, ne_eq, not_true_eq_false, if_false, if_true]
    | some r =>
      have hread : f.read now n = some (({ f with queue := r.2 } : Flow).hand now n (frame r.1)) := by
        simp only [Flow.read, hpending, hrecv, ne_eq, not_true_eq_false, if_false]
      refine .inr ⟨_, _, hread, hdone, hfewer hread (Writer.take_ne_nil (Nat.ne_of_gt hn) ?_)⟩
      simp [frame, putUint16]
  · have hread : f.read now n = some (f.hand now n f.pending) := if_pos hpending
    exact .inr ⟨_, _, hread, hdone, hfewer hread (Writer.take_ne_nil (Nat.ne_of_gt hn) hpending)⟩

def readsOf (calls : List (Nat × Nat)) : List FlowAct := calls.map fun c => .read c.1 c.2

theorem reads_end {s : FlowLog} {calls : List (Nat × Nat)} (hdone : s.flow.done = true) (hsizes : ∀ c ∈ calls, 0 < c.2)
    (hmany : s.flow.left.length < calls.length) :
    ∃ before c after t, calls = before ++ c :: after ∧ run flowStep s (readsOf before) = some t ∧
      t.queued = s.queued ∧ t.flow.Ends c.1 c.2 := by
  induction calls generalizing s with
  | nil => exact absurd hmany (Nat.not_lt_zero _)
  | cons c calls ih =>
    rw [forall_mem_cons] at hsizes
    obtain hend | ⟨f', piece, hread, hdone', hfewer⟩ := @read_closed s.flow c.1 c.2 hdone hsizes.1
    · exact ⟨[], c, calls, s, rfl, rfl, rfl, hend⟩
    · have hstep : flowStep s (.read c.1 c.2) = some { s with flow := f', pieces := s.pieces ++ [piece] } := by
        rw [flowStep, hread]
        rfl
      rw [length_cons] at hmany
      obtain ⟨before, c', after, t, rfl, hrun, hqueued, hend⟩ :=
        @ih { s with flow := f', pieces := s.pieces ++ [piece] } hdone' hsizes.2 (by simp only; omega)
      refine ⟨c :: before, c', after, t, rfl, ?_, hqueued, hend⟩
      rw [readsOf, map_cons, run, hstep, bind_some]
      exact hrun

/-- The frames of the datagrams go through `Write` in any chunks, while the flow is open and its socket takes what is
sent. -/
def WrittenThrough (ds : List Str) : Prop :=
  ∃ w, ds.foldlM writeDatagram ⟨[], none⟩ = .ok w ∧
    ∀ (chunks : List Str) (out : Nat → Nat → Outside), chunks.flatten = w.bytes → (∀ i k, out i k = .fine) →
      ∃ f, Writer.writes out .fresh chunks = (f, chunks.map fun p => (p.length, none)) ∧ f.sent = ds

/-- Whenever `Read` returns `io.EOF`, and it does so once the flow is closed and was read often enough, what it returned
so far is read as the datagrams that were queued. -/
def ReadThrough (s : FlowLog) : Prop :=
  (∀ now n len, s.flow.Ends now n → maxDatagram ≤ len →
    ∃ conn, (Decoder.all (s.queued.map fun _ => readDatagram len)).run Chunked.readFull ⟨s.pieces, .eof⟩ =
        .ok (s.queued, conn) ∧
      (readDatagram len).run Chunked.readFull conn = .error .eof) ∧
  (s.flow.done = true → ∀ calls : List (Nat × Nat), (∀ c ∈ calls, 0 < c.2) → s.flow.left.length < calls.length →
    ∃ before c after t, calls = before ++ c :: after ∧ run flowStep s (readsOf before) = some t ∧
      t.queued = s.queued ∧ t.flow.Ends c.1 c.2)

theorem datagrams_through_flow :
    (∀ ds : List Str, (∀ d ∈ ds, d.length ≤ maxDatagram) → WrittenThrough ds) ∧
      ∀ now key s, Reach flowStep (fun _ a => a.Legal) (flowOpened now key) s → ReadThrough s := by
  constructor
  · intro ds hds
    refine ⟨_, foldlM_writeDatagram hds [], fun chunks out hchunks hout => ?_⟩
    exact Writer.writes_frames hout hds hchunks
  · intro now key s hreach
    have hkept := kept_of_reach hreach
    exact ⟨fun now n len hend hlen => decodes_at_end hkept hend hlen, fun hdone calls => reads_end hdone⟩

end ArangeTun.UdpForward
