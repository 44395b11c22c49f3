import ArangeTun.Metrics.Model
import ArangeTun.Transition.Run

/-! # What the counters report -/

namespace ArangeTun.Metrics

open Transition Traffic

/-! ## What crossed the tunnel -/

def Chunk.crossed (c : Chunk) : Nat :=
  match c.dir, c.outcome with
  | .inbound, _ => c.n
  | .outbound, .passed => c.n
  | .outbound, .failed written => written
  | .outbound, .dropped => 0

def Chunk.passed (c : Chunk) : Nat :=
  match c.outcome with
  | .passed => c.n
  | .failed _ | .dropped => 0

def Chunk.lost (c : Chunk) : Nat :=
  match c.dir, c.outcome with
  | _, .passed => 0
  | .inbound, _ => c.n
  | .outbound, .failed written => written
  | .outbound, .dropped => 0

def total (f : Chunk → Nat) (d : Dir) (cs : List Chunk) : Nat :=
  ((cs.filter (·.dir = d)).map f).sum

def Lossless (cs : List Chunk) : Prop :=
  ∀ c ∈ cs, c.lost = 0

def Accounted (cs : List Chunk) (m : Traffic) : Prop :=
  m.bytesIn = total Chunk.crossed .inbound cs ∧ m.bytesOut = total Chunk.crossed .outbound cs

def Exchanged (m m' : Traffic) : Prop :=
  m.bytesIn = m'.bytesOut ∧ m.bytesOut = m'.bytesIn

def Delivered (server client : List Chunk) : Prop :=
  total Chunk.crossed .outbound server = total Chunk.crossed .inbound client ∧
    total Chunk.crossed .outbound client = total Chunk.crossed .inbound server

def Balanced (cs : List Chunk) : Prop :=
  total Chunk.passed .inbound cs = total Chunk.passed .outbound cs

instance (cs : List Chunk) : Decidable (Lossless cs) := inferInstanceAs (Decidable (∀ c ∈ cs, _))

instance (cs : List Chunk) (m : Traffic) : Decidable (Accounted cs m) := inferInstanceAs (Decidable (_ ∧ _))

instance (m m' : Traffic) : Decidable (Exchanged m m') := inferInstanceAs (Decidable (_ ∧ _))

instance (server client : List Chunk) : Decidable (Delivered server client) := inferInstanceAs (Decidable (_ ∧ _))

instance (cs : List Chunk) : Decidable (Balanced cs) := inferInstanceAs (Decidable (_ = _))

section

variable {f : Chunk → Nat} {d : Dir} {c : Chunk} {cs : List Chunk}

@[simp] theorem total_nil : total f d [] = 0 := rfl

theorem total_cons : total f d (c :: cs) = (if c.dir = d then f c else 0) + total f d cs := by
  by_cases h : c.dir = d <;> simp [total, h]

theorem Chunk.crossed_eq (c : Chunk) : c.crossed = c.passed + c.lost := by
  obtain ⟨dir, _, _, outcome⟩ := c
  cases dir <;> cases outcome <;> simp [Chunk.crossed, Chunk.passed, Chunk.lost]

theorem total_crossed (d : Dir) (cs : List Chunk) :
    total Chunk.crossed d cs = total Chunk.passed d cs + total Chunk.lost d cs := by
  induction cs with
  | nil => rfl
  | cons c cs ih =>
    simp only [total_cons, ih, Chunk.crossed_eq]
    split <;> omega

theorem lossless_iff :
    Lossless cs ↔ total Chunk.lost .inbound cs = 0 ∧ total Chunk.lost .outbound cs = 0 := by
  induction cs with
  | nil => simp [Lossless]
  | cons c cs ih =>
    simp only [Lossless, List.forall_mem_cons] at ih ⊢
    rw [ih, total_cons, total_cons]
    cases c.dir <;> simp <;> omega

theorem Lossless.total_passed (h : Lossless cs) (d : Dir) : total Chunk.passed d cs = total Chunk.crossed d cs := by
  obtain ⟨hin, hout⟩ := lossless_iff.mp h
  rw [total_crossed]
  cases d <;> omega

end

/-! ## The counter a direction is added to -/

def Dir.other : Dir → Dir
  | .inbound => .outbound
  | .outbound => .inbound

def Traffic.counter (m : Traffic) : Dir → Nat
  | .inbound => m.bytesIn
  | .outbound => m.bytesOut

def counterOf : Proto → Side → Dir → Dir
  | .udp, .client, d => d.other
  | .udp, .server, d | .tcp, _, d => d

variable {t : Transport} {p : Proto} {side : Side}

def Dir.only : Dir → Nat → Nat × Nat
  | .inbound, n => (n, 0)
  | .outbound, n => (0, n)

theorem relay_addBytes (t : Transport) (p : Proto) (side : Side) (d : Dir) (n : Nat) :
    ((relay t p side).loop d).addBytes n = (counterOf p side d).only n := by
  cases t <;> cases p <;> cases side <;> cases d <;> rfl

theorem counterOf_inj {d d' : Dir} : counterOf p side d = counterOf p side d' ↔ d = d' := by
  cases p <;> cases side <;> cases d <;> cases d' <;> decide

theorem Traffic.counter_addBytes (m : Traffic) (d d' : Dir) (n : Nat) :
    (m.addBytes (d.only n)).counter d' = m.counter d' + if d = d' then n else 0 := by
  rcases Nat.eq_zero_or_pos n with rfl | hn
  · cases d <;> cases d' <;> simp [addBytes, counter, Dir.only]
  · cases d <;> cases d' <;> simp [addBytes, counter, Dir.only, hn]

theorem step_counter {s s' : State} {c : Chunk} (h : step (relay t p side) s c = some s') (d : Dir) :
    s'.traffic.counter (counterOf p side d) =
      s.traffic.counter (counterOf p side d) + if c.dir = d then c.passed else 0 := by
  unfold step at h
  split at h
  · cases h
  · unfold Chunk.passed
    split at h
    · cases h
      simp only [relay_addBytes, counter_addBytes, counterOf_inj, *]
    · split at h <;> cases h <;> simp [*]
    · cases h
      simp [*]

theorem run_counter {s s' : State} {cs : List Chunk} (h : run (step (relay t p side)) s cs = some s') (d : Dir) :
    s'.traffic.counter (counterOf p side d) =
      s.traffic.counter (counterOf p side d) + total Chunk.passed d cs := by
  induction cs generalizing s with
  | nil =>
    cases h
    rfl
  | cons c cs ih =>
    simp only [run, Option.bind_eq_some_iff] at h
    obtain ⟨s₁, hs, hrest⟩ := h
    rw [ih hrest, step_counter hs, total_cons, Nat.add_assoc]

theorem run_init_counter {s : State} {cs : List Chunk} (h : run (step (relay t p side)) .init cs = some s) (d : Dir) :
    s.traffic.counter (counterOf p side d) = total Chunk.passed d cs := by
  have h₀ : State.init.traffic.counter (counterOf p side d) = 0 := by
    cases counterOf p side d <;> rfl
  rw [run_counter h, h₀, Nat.zero_add]

theorem accounted_iff {s : State} {cs : List Chunk} (h : run (step (relay t p side)) .init cs = some s) :
    Accounted cs s.traffic ↔ Lossless cs ∧ (p = .udp ∧ side = .client → Balanced cs) := by
  have hin := run_init_counter h .inbound
  have hout := run_init_counter h .outbound
  simp only [Accounted, lossless_iff, total_crossed, Balanced]
  cases p <;> cases side <;> simp only [counterOf, Dir.other, counter] at hin hout <;> simp <;> omega

variable {ss cs : List Chunk} {s c : State}

theorem exchanged_iff (hs : run (step (relay t p .server)) .init ss = some s)
    (hc : run (step (relay t p .client)) .init cs = some c) (hdelivered : Delivered ss cs) (hss : Lossless ss)
    (hcs : Lossless cs) : Exchanged s.traffic c.traffic ↔ (p = .udp → Balanced cs) := by
  obtain ⟨hdown, hup⟩ := hdelivered
  rw [← hss.total_passed, ← hcs.total_passed] at hdown hup
  have hsin := run_init_counter hs .inbound
  have hsout := run_init_counter hs .outbound
  have hcin := run_init_counter hc .inbound
  have hcout := run_init_counter hc .outbound
  simp only [Exchanged, Balanced]
  cases p <;> simp only [counterOf, Dir.other, counter] at hsin hsout hcin hcout <;> simp <;> omega

/-- The two ends of a tunnel count what crossed it, unless a chunk is lost or a UDP relay of the client counts it. -/
theorem byte_accounting (hs : run (step (relay t p .server)) .init ss = some s)
    (hc : run (step (relay t p .client)) .init cs = some c) :
    (Accounted ss s.traffic ↔ Lossless ss) ∧
      (Accounted cs c.traffic ↔ Lossless cs ∧ (p = .udp → Balanced cs)) ∧
      (Delivered ss cs → Lossless ss → Lossless cs → (Exchanged s.traffic c.traffic ↔ (p = .udp → Balanced cs))) := by
  refine ⟨?_, ?_, exchanged_iff hs hc⟩
  · simpa using accounted_iff hs
  · simpa using accounted_iff hc

/-- A request of 40 bytes and a reply of 1200 over TCP, as the server and the client see it. -/
theorem byte_accounting_tcp :
    ∃ s c : State,
      let server : List Chunk := [⟨.outbound, 0, 40, .passed⟩, ⟨.inbound, 0, 1200, .passed⟩]
      let client : List Chunk := [⟨.inbound, 0, 40, .passed⟩, ⟨.outbound, 0, 1200, .passed⟩]
      run (step (relay .frp .tcp .server)) .init server = some s ∧
        run (step (relay .frp .tcp .client)) .init client = some c ∧
        Accounted server s.traffic ∧ Accounted client c.traffic ∧ Exchanged s.traffic c.traffic := by
  have hs : run (step (relay .frp .tcp .server)) .init [⟨.outbound, 0, 40, .passed⟩, ⟨.inbound, 0, 1200, .passed⟩] =
      some ⟨⟨1200, 40⟩, []⟩ := rfl
  have hc : run (step (relay .frp .tcp .client)) .init [⟨.inbound, 0, 40, .passed⟩, ⟨.outbound, 0, 1200, .passed⟩] =
      some ⟨⟨40, 1200⟩, []⟩ := rfl
  obtain ⟨hserver, hclient, hends⟩ := byte_accounting hs hc
  refine ⟨_, _, hs, hc, hserver.mpr (by decide), hclient.mpr (by decide), ?_⟩
  exact (hends (by decide) (by decide) (by decide)).mpr (by decide)

/-- The same request and reply as datagrams. -/
theorem udp_client_swapped :
    ∃ s c : State,
      let server : List Chunk := [⟨.outbound, 0, 40, .passed⟩, ⟨.inbound, 0, 1200, .passed⟩]
      let client : List Chunk := [⟨.inbound, 0, 40, .passed⟩, ⟨.outbound, 0, 1200, .passed⟩]
      run (step (relay .frp .udp .server)) .init server = some s ∧
        run (step (relay .frp .udp .client)) .init client = some c ∧
        Delivered server client ∧ Lossless server ∧ Lossless client ∧
        c.traffic = ⟨1200, 40⟩ ∧ ¬Accounted client c.traffic ∧ ¬Exchanged s.traffic c.traffic := by
  refine ⟨_, _, rfl, rfl, ?_⟩
  decide

end ArangeTun.Metrics
