import ArangeTun.Go.Map
import ArangeTun.Go.Str
import ArangeTun.Transition.Run

/-!
# The sparkline of a tunnel

`rateTracker.sample` of internal/webui/stats.go. Its lock makes each call one step; the snapshot was read earlier.
-/

namespace ArangeTun.Panel

open Go Transition

structure Snapshot where
  taken : Nat
  bytesIn : Nat
  bytesOut : Nat
  deriving DecidableEq

structure RatePoint where
  t : Nat
  bytesIn : Nat
  bytesOut : Nat
  start : Nat
  stop : Nat
  deriving DecidableEq

structure RateTracker where
  last : Map Str Snapshot := .empty
  hist : Map Str (List RatePoint) := .empty

def rateKeep : Nat := 48

def unix (t : Nat) : Nat := t / 1000000000

namespace RateTracker

def history (r : RateTracker) (name : Str) : List RatePoint := (r.hist name).getD []

def point (prev snap : Snapshot) : RatePoint :=
  ⟨unix snap.taken, snap.bytesIn - prev.bytesIn, snap.bytesOut - prev.bytesOut, prev.taken, snap.taken⟩

def keep (h : List RatePoint) : List RatePoint := if rateKeep < h.length then h.drop (h.length - rateKeep) else h

def addPoint (r : RateTracker) (name : Str) (prev snap : Snapshot) : RateTracker :=
  if prev.taken < snap.taken ∧ prev.bytesIn ≤ snap.bytesIn ∧ prev.bytesOut ≤ snap.bytesOut then
    { r with hist := r.hist.set name (keep (r.history name ++ [point prev snap])) }
  else r

def sample (r : RateTracker) (name : Str) (snap : Snapshot) : RateTracker :=
  match r.last name with
  | none => { r with last := r.last.set name snap }
  | some prev =>
    if snap.taken = prev.taken then r
    else { r.addPoint name prev snap with last := r.last.set name snap }

def step (r : RateTracker) (call : Str × Snapshot) : Option RateTracker := some (r.sample call.1 call.2)

/-- The snapshot is the one that was passed last, or one of a later second. -/
def InOrder (r : RateTracker) (call : Str × Snapshot) : Prop :=
  ∀ prev ∈ r.last call.1, prev.taken = call.2.taken ∨ unix prev.taken < unix call.2.taken

instance (r : RateTracker) (call : Str × Snapshot) : Decidable (InOrder r call) :=
  inferInstanceAs (Decidable (∀ prev, r.last call.1 = some prev → _))

/-- The points of a tunnel that come one after the other, up to the last snapshot. -/
structure Apart (h : List RatePoint) (last : Option Snapshot) : Prop where
  times : h.Pairwise fun p q => p.t < q.t ∧ p.stop ≤ q.start
  ends : ∀ p ∈ h, p.start < p.stop ∧ ∃ snap, last = some snap ∧ p.stop ≤ snap.taken ∧ p.t ≤ unix snap.taken
  length : h.length ≤ rateKeep

variable {r r' : RateTracker} {name : Str} {prev snap : Snapshot} {h : List RatePoint}

theorem Apart.later (ha : Apart h (some prev)) (hlt : unix prev.taken < unix snap.taken) : Apart h (some snap) := by
  refine ⟨ha.times, fun p hp => ?_, ha.length⟩
  obtain ⟨hpos, s, hs, hstop, ht⟩ := ha.ends p hp
  cases hs
  have hle : prev.taken ≤ snap.taken := Nat.le_of_lt (Nat.lt_of_div_lt_div hlt)
  exact ⟨hpos, snap, rfl, hstop.trans hle, ht.trans (Nat.le_of_lt hlt)⟩

theorem Apart.concat (ha : Apart h (some prev)) (hlt : unix prev.taken < unix snap.taken) :
    Apart (keep (h ++ [point prev snap])) (some snap) := by
  have htimes : (h ++ [point prev snap]).Pairwise fun p q => p.t < q.t ∧ p.stop ≤ q.start := by
    refine List.pairwise_append.mpr ⟨ha.times, List.pairwise_singleton .., fun p hp q hq => ?_⟩
    obtain ⟨-, s, hs, hstop, ht⟩ := ha.ends p hp
    cases hs
    cases List.mem_singleton.mp hq
    exact ⟨ht.trans_lt hlt, hstop⟩
  have hends : ∀ p ∈ h ++ [point prev snap], p.start < p.stop ∧
      ∃ s, some snap = some s ∧ p.stop ≤ s.taken ∧ p.t ≤ unix s.taken := by
    intro p hp
    rcases List.mem_append.mp hp with hp | hp
    · exact (ha.later hlt).ends p hp
    · cases List.mem_singleton.mp hp
      exact ⟨Nat.lt_of_div_lt_div hlt, snap, rfl, Nat.le_refl _, Nat.le_refl _⟩
  unfold keep
  split
  · exact ⟨htimes.sublist (List.drop_sublist ..), fun p hp => hends p (List.mem_of_mem_drop hp), by simp; omega⟩
  · exact ⟨htimes, hends, by omega⟩

theorem Apart.sample (ha : ∀ name, Apart (r.history name) (r.last name)) (hin : InOrder r (name, snap)) (other : Str) :
    Apart ((r.sample name snap).history other) ((r.sample name snap).last other) := by
  unfold RateTracker.sample
  have hold := ha other
  cases hlast : r.last name with
  | none =>
    by_cases ho : other = name
    · subst ho
      have hempty : r.history other = [] := by
        refine List.eq_nil_iff_forall_not_mem.mpr fun p hp => ?_
        obtain ⟨-, s, hs, -⟩ := hold.ends p hp
        rw [hlast] at hs
        cases hs
      change Apart (r.history other) _
      rw [hempty]
      exact ⟨.nil, nofun, Nat.zero_le _⟩
    · change Apart (r.history other) (r.last.set name snap other)
      rw [Map.set_of_ne ho]
      exact hold
  | some prev =>
    dsimp only
    split
    · exact hold
    next hne =>
      have hlt : unix prev.taken < unix snap.taken := (hin prev hlast).resolve_left fun h => hne h.symm
      have hpoint : other ≠ name → (r.addPoint name prev snap).history other = r.history other := by
        intro ho
        unfold addPoint history
        split
        · simp [Map.set_of_ne ho]
        · rfl
      by_cases ho : other = name
      · subst ho
        rw [hlast] at hold
        simp only [Map.set_self]
        unfold addPoint
        split
        · simpa [history] using hold.concat hlt
        · exact hold.later hlt
      · change Apart ((r.addPoint name prev snap).history other) (r.last.set name snap other)
        rw [hpoint ho, Map.set_of_ne ho]
        exact hold

/-- Snapshots that are passed in order give points of disjoint intervals, in order. -/
theorem points_apart (hr : Reach step InOrder {} r) (name : Str) :
    (r.history name).Pairwise (fun p q => p.t < q.t ∧ p.stop ≤ q.start) ∧
      (∀ p ∈ r.history name, p.start < p.stop) ∧ (r.history name).length ≤ rateKeep := by
  have ha : ∀ name, Apart (r.history name) (r.last name) := by
    refine hr.invariant (I := fun r => ∀ name, Apart (r.history name) (r.last name))
      (fun _ => ⟨.nil, nofun, Nat.zero_le _⟩) fun r call r' hi hin hs => ?_
    cases hs
    exact Apart.sample hi hin
  exact ⟨(ha name).times, fun p hp => ((ha name).ends p hp).1, (ha name).length⟩

def atSecond (s bytes : Nat) : Str × Snapshot := (lit "t", ⟨s * 1000000000, bytes, bytes⟩)

theorem three_points_apart : ∃ r, Reach step InOrder {} r ∧ (r.history (lit "t")).map RatePoint.t = [20, 30] ∧
    (r.history (lit "t")).Pairwise (fun p q => p.t < q.t ∧ p.stop ≤ q.start) := by
  obtain ⟨r, hr, ht⟩ : ∃ r, Reach step InOrder {} r ∧ (r.history (lit "t")).map RatePoint.t = [20, 30] :=
    exists_reach [atSecond 10 0, atSecond 20 5, atSecond 20 5, atSecond 30 9] (by decide +kernel)
  exact ⟨r, hr, ht, (points_apart hr _).1⟩

/-- A refresh that was held up passes the older snapshot, and the next one covers the interval a second time. -/
theorem interval_covered_twice : ∃ r, Reach step Any {} r ∧
    r.history (lit "t") = [⟨20, 5, 5, 10000000000, 20000000000⟩, ⟨20, 5, 5, 10000000000, 20000000000⟩] :=
  exists_reach [atSecond 10 0, atSecond 20 5, atSecond 10 0, atSecond 20 5] (by decide +kernel)

end RateTracker

end ArangeTun.Panel
