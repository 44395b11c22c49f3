import ArangeTun.Metrics.Model
import ArangeTun.Transition.Run
import ArangeTun.Transition.Table

/-!
# The metrics file

`NewCollector`, `Snapshot`, `Write` and `Run` of internal/metrics/metrics.go, and `startMetrics` of cmd/cmd.go.
-/

namespace ArangeTun.Metrics

open Transition

/-! ## Totals -/

instance : Add Traffic := ⟨fun a b => ⟨a.bytesIn + b.bytesIn, a.bytesOut + b.bytesOut⟩⟩

instance : Zero Traffic := ⟨⟨0, 0⟩⟩

instance : LE Traffic := ⟨fun a b => a.bytesIn ≤ b.bytesIn ∧ a.bytesOut ≤ b.bytesOut⟩

instance (a b : Traffic) : Decidable (a ≤ b) := inferInstanceAs (Decidable (_ ∧ _))

namespace Traffic

theorem le_iff {a b : Traffic} : a ≤ b ↔ a.bytesIn ≤ b.bytesIn ∧ a.bytesOut ≤ b.bytesOut := Iff.rfl

@[simp] theorem zero_bytesIn : (0 : Traffic).bytesIn = 0 := rfl

@[simp] theorem zero_bytesOut : (0 : Traffic).bytesOut = 0 := rfl

@[simp] theorem add_bytesIn (a b : Traffic) : (a + b).bytesIn = a.bytesIn + b.bytesIn := rfl

@[simp] theorem add_bytesOut (a b : Traffic) : (a + b).bytesOut = a.bytesOut + b.bytesOut := rfl

theorem addBytes_eq (m : Traffic) (n : Nat × Nat) : m.addBytes n = m + ⟨n.1, n.2⟩ := by
  obtain ⟨i, o⟩ := n
  cases i <;> cases o <;> rfl

end Traffic

/-! ## The collectors of a process -/

namespace Persist

/-- The totals of a snapshot, with the counters as they were when it was taken. -/
structure Snapshot where
  total : Traffic
  live : Traffic
  deriving DecidableEq

inductive Pc
  -- in the `select` of `Run`, or before the first `Write`
  | waiting
  -- in `Write`, between `os.WriteFile` and `os.Rename`
  | writing
  | returned
  deriving DecidableEq

structure Collector where
  base : Traffic
  ended : Bool := false
  pc : Pc := .waiting
  deriving DecidableEq

structure State where
  traffic : Traffic := 0
  file : Option Traffic
  tmp : Option Snapshot := none
  collectors : List Collector := []
  written : List Snapshot := []
  deriving DecidableEq

inductive Action
  | addBytes (n : Nat × Nat)
  -- `startMetrics` of the next run
  | newCollector
  -- the run is over
  | cancel
  -- the two halves of `Write`
  | write (i : Nat)
  | rename (i : Nat)
  -- after the final `Write`
  | finish (i : Nat)
  deriving DecidableEq

def baseline (file : Option Traffic) : Traffic := file.getD 0

def Collector.snapshot (c : Collector) (live : Traffic) : Snapshot := ⟨c.base + live, live⟩

namespace State

variable (s : State) (i : Nat)

def newCollector : Option State :=
  if ∀ c ∈ s.collectors, c.ended = true then
    some { s with collectors := s.collectors ++ [{ base := baseline s.file }] }
  else none

def cancel : State := { s with collectors := s.collectors.map fun c => { c with ended := true } }

def write : Option State :=
  match s.collectors[i]? with
  | none => none
  | some c =>
    if c.pc = .waiting then
      some { s with tmp := some (c.snapshot s.traffic), collectors := s.collectors.set i { c with pc := .writing } }
    else none

/-- Another collector may have taken the temporary file away, and then `os.Rename` fails. -/
def rename : Option State :=
  match s.collectors[i]? with
  | none => none
  | some c =>
    if c.pc = .writing then
      let s := { s with collectors := s.collectors.set i { c with pc := .waiting } }
      match s.tmp with
      | none => some s
      | some snap => some { s with file := some snap.total, tmp := none, written := s.written ++ [snap] }
    else none

def finish : Option State :=
  match s.collectors[i]? with
  | none => none
  | some c =>
    if c.ended = true ∧ c.pc = .waiting then
      some { s with collectors := s.collectors.set i { c with pc := .returned } }
    else none

end State

def step (s : State) : Action → Option State
  | .addBytes n => some { s with traffic := s.traffic.addBytes n }
  | .newCollector => s.newCollector
  | .cancel => some s.cancel
  | .write i => s.write i
  | .rename i => s.rename i
  | .finish i => s.finish i

/-! ## Counting once -/

/-- The totals in the file have been those at the start and what the process had counted. -/
def CountsOnce (start : Traffic) (s : State) : Prop := ∀ snap ∈ s.written, snap.total = start + snap.live

instance (start : Traffic) (s : State) : Decidable (CountsOnce start s) :=
  inferInstanceAs (Decidable (∀ snap ∈ s.written, _))

/-- A run begins only when the file has the totals that it had when the process started. -/
def FindsStart (start : Traffic) : State → Action → Prop
  | s, .newCollector => baseline s.file = start
  | _, _ => True

instance (start : Traffic) (s : State) (a : Action) : Decidable (FindsStart start s a) := by
  unfold FindsStart
  split <;> infer_instance

structure FromStart (start : Traffic) (s : State) : Prop where
  base : ∀ (i : Nat) (c : Collector), s.collectors[i]? = some c → c.base = start
  tmp : ∀ snap ∈ s.tmp, snap.total = start + snap.live
  written : CountsOnce start s

variable {start : Traffic} {s s' : State} {i : Nat} {a : Action}

theorem FromStart.set {c : Collector} (hi : FromStart start s) (hc : s.collectors[i]? = some c) (c' : Collector)
    (hbase : c'.base = c.base) : FromStart start { s with collectors := s.collectors.set i c' } := by
  refine ⟨forall_set hi.base ?_, hi.tmp, hi.written⟩
  rw [hbase, hi.base i c hc]

theorem FromStart.write (hi : FromStart start s) (hs : s.write i = some s') : FromStart start s' := by
  unfold State.write at hs
  split at hs
  · cases hs
  next c hc =>
    split at hs <;> cases hs
    have hset := hi.set hc { c with pc := .writing } rfl
    refine ⟨hset.base, ?_, hi.written⟩
    rintro snap ⟨⟩
    simp [Collector.snapshot, hi.base i c hc]

theorem FromStart.rename (hi : FromStart start s) (hs : s.rename i = some s') : FromStart start s' := by
  unfold State.rename at hs
  split at hs
  · cases hs
  next c hc =>
    have hset := hi.set hc { c with pc := .waiting } rfl
    split at hs
    · dsimp only at hs
      split at hs <;> cases hs
      · exact hset
      next snap htmp =>
        refine ⟨hset.base, by simp, ?_⟩
        intro snap' hsnap
        rcases List.mem_append.mp hsnap with h | h
        · exact hi.written snap' h
        · rw [List.mem_singleton.mp h]
          exact hi.tmp snap htmp
    · cases hs

theorem FromStart.step (hi : FromStart start s) (ha : FindsStart start s a)
    (hs : Persist.step s a = some s') : FromStart start s' := by
  cases a with
  | addBytes n =>
    cases hs
    exact ⟨hi.base, hi.tmp, hi.written⟩
  | newCollector =>
    simp only [Persist.step, State.newCollector] at hs
    split at hs <;> cases hs
    exact ⟨forall_concat hi.base ha, hi.tmp, hi.written⟩
  | cancel =>
    cases hs
    refine ⟨fun i c hc => ?_, hi.tmp, hi.written⟩
    simp only [State.cancel, List.getElem?_map, Option.map_eq_some_iff] at hc
    obtain ⟨c', hc', rfl⟩ := hc
    exact hi.base i c' hc'
  | write i => exact hi.write hs
  | rename i => exact hi.rename hs
  | finish i =>
    simp only [Persist.step, State.finish] at hs
    split at hs
    · cases hs
    next c hc =>
      split at hs <;> cases hs
      exact hi.set hc _ rfl

/-- The totals count each byte once in a process whose runs all find the totals of its start. -/
theorem countsOnce_of_findsStart {file : Option Traffic}
    (hr : Reach step (FindsStart (baseline file)) { file := file } s) : CountsOnce (baseline file) s := by
  have hi : FromStart (baseline file) s :=
    hr.invariant ⟨by simp, by simp, by simp [CountsOnce]⟩ fun s a s' hi hc hs => hi.step hc hs
  exact hi.written

/-- A reload before anything has been counted. -/
theorem countsOnce_reloaded_at_once :
    ∃ s, CountsOnce ⟨7, 5⟩ s ∧ s.file = some ⟨10, 9⟩ ∧ s.collectors.length = 2 := by
  obtain ⟨s, hr, hs⟩ : ∃ s, Reach step (FindsStart (baseline (some ⟨7, 5⟩))) { file := some ⟨7, 5⟩ } s ∧
      (s.file = some ⟨10, 9⟩ ∧ s.collectors.length = 2) :=
    exists_reach [.newCollector, .write 0, .rename 0, .cancel, .newCollector, .addBytes (3, 4), .write 1, .write 0,
      .rename 1, .rename 0, .finish 0] (by decide)
  exact ⟨s, countsOnce_of_findsStart hr, hs⟩

/-- A hundred bytes are counted and written, and the tunnel is reloaded. -/
theorem reload_counts_twice : ∃ s, Reach step Any { file := none } s ∧ ¬ CountsOnce (baseline none) s :=
  exists_reach [.newCollector, .addBytes (100, 0), .write 0, .rename 0, .cancel, .newCollector, .write 1, .rename 1]
    (by decide)

end Persist

end ArangeTun.Metrics
