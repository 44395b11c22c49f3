import ArangeTun.Transition.Run

/-!
# Health steering

`steerLoop` of internal/utils/network/healthscore.go and `Rotate` of endpoints.go, over `preferred`.
-/

namespace ArangeTun.Steering

/-! ## Scores -/

structure Ping where
  rttMs : ℚ≥0
  jitterMs : ℚ≥0
  lossPct : ℚ≥0
  deriving DecidableEq

structure EndpointScore where
  score : ℚ≥0
  reachable : Bool
  deriving DecidableEq

def computeScore (rttMs jitterMs lossPct : ℚ≥0) : ℚ≥0 := rttMs + 2 * jitterMs + 20 * lossPct

def scoreEndpoint : Option Ping → EndpointScore
  | none => ⟨10 ^ 9, false⟩
  | some p => ⟨computeScore p.rttMs p.jitterMs p.lossPct, true⟩

variable {n : Nat}

def better (scores : Fin n → EndpointScore) (best : Option (Fin n)) (i : Fin n) : Option (Fin n) :=
  match best with
  | none => if (scores i).reachable then some i else none
  | some b => if (scores i).reachable ∧ (scores i).score < (scores b).score then some i else some b

def bestOf (scores : Fin n → EndpointScore) : Option (Fin n) := (List.finRange n).foldl (better scores) none

def IsBest (scores : Fin n → EndpointScore) (b : Fin n) : Prop :=
  (scores b).reachable = true ∧ ∀ i, (scores i).reachable = true → (scores b).score ≤ (scores i).score

instance (scores : Fin n → EndpointScore) (b : Fin n) : Decidable (IsBest scores b) :=
  inferInstanceAs (Decidable (_ ∧ _))

/-! ## The loop -/

def betterBy : ℚ≥0 := 85 / 100

def needStreak : Nat := 3

def clampIdx (len : Nat) (v : Int) : Int :=
  let i := v.tmod len
  if i < 0 then i + len else i

/-- A round of the loop: the scores, and the endpoint that was preferred. -/
structure Round (n : Nat) where
  scores : Fin n → EndpointScore
  incumbent : Fin n

/-- A store of `preferred` by the loop, with the rounds up to it, the last one first. -/
structure Move (n : Nat) where
  source : Fin n
  target : Fin n
  rounds : List (Round n)

structure Scored (n : Nat) where
  scores : Fin n → EndpointScore
  best : Fin n
  cur : Fin n

structure State (n : Nat) where
  preferred : Int
  scored : Option (Scored n)
  candidate : Option (Fin n)
  streak : Nat
  -- what the calls of `Rotate` have loaded that did not store yet
  rotating : List Int
  rounds : List (Round n)
  moves : List (Move n)

inductive Action (n : Nat)
  | score (pings : Fin n → Option Ping)
  | decide
  | rotateLoad
  | rotateStore (loaded : Int)

theorem clampIdx_bounds {len : Nat} (h : len ≠ 0) (v : Int) : 0 ≤ clampIdx len v ∧ clampIdx len v < len := by
  have hlt := Int.tmod_lt_of_pos v (show 0 < (len : Int) by omega)
  have hgt := Int.lt_tmod_of_pos v (show 0 < (len : Int) by omega)
  simp only [clampIdx]
  split <;> omega

variable [NeZero n]

def clamped (n : Nat) [NeZero n] (v : Int) : Fin n :=
  ⟨(clampIdx n v).toNat, by have := clampIdx_bounds (NeZero.ne n) v; omega⟩

def State.initial (idx : Int) : State n := ⟨idx, none, none, 0, [], [], []⟩

def State.reset (s : State n) : State n := { s with candidate := none, streak := 0 }

def State.settle (s : State n) (r : Scored n) : State n :=
  let s := { s with scored := none, rounds := ⟨r.scores, r.cur⟩ :: s.rounds }
  if r.best = r.cur then s.reset
  else
    let curDead := !(r.scores r.cur).reachable
    let clearlyBetter : Bool := (r.scores r.best).score ≤ betterBy * (r.scores r.cur).score
    if !curDead && !clearlyBetter then s.reset
    else
      let streak := if s.candidate = some r.best then s.streak + 1 else 1
      if curDead || streak ≥ needStreak then
        State.reset { s with preferred := r.best, moves := ⟨r.cur, r.best, s.rounds⟩ :: s.moves }
      else { s with candidate := some r.best, streak := streak }

def step (s : State n) : Action n → Option (State n)
  | .score pings =>
    if s.scored.isSome then none
    else
      let scores := fun i => scoreEndpoint (pings i)
      match bestOf scores with
      -- nothing answered
      | none => some { s with rounds := ⟨scores, clamped n s.preferred⟩ :: s.rounds }
      | some best => some { s with scored := some ⟨scores, best, clamped n s.preferred⟩ }
  | .decide => s.scored.map s.settle
  | .rotateLoad => some { s with rotating := s.preferred :: s.rotating }
  | .rotateStore v =>
    if v ∈ s.rotating then
      some { s with rotating := s.rotating.erase v, preferred := clampIdx n ((v + 1).bmod (2 ^ 64)) }
    else none

/-! ## Hysteresis -/

/-- In the round `a` was preferred, and `b` was the best and scored at most 85% of it. -/
def Round.Favours (r : Round n) (a b : Fin n) : Prop :=
  r.incumbent = a ∧ IsBest r.scores b ∧ (r.scores b).score ≤ betterBy * (r.scores a).score

instance (r : Round n) (a b : Fin n) : Decidable (r.Favours a b) := inferInstanceAs (Decidable (_ ∧ _))

/-- If the endpoint that the loop left was reachable in the last round, then the last three rounds favoured the one it
moved to. -/
def Move.Hysteresis (m : Move n) : Prop :=
  (∀ r ∈ m.rounds.take 1, (r.scores m.source).reachable = true) →
    needStreak ≤ m.rounds.length ∧ ∀ r ∈ m.rounds.take needStreak, r.Favours m.source m.target

instance (m : Move n) : Decidable m.Hysteresis := inferInstanceAs (Decidable (_ → _))

/-- A round without an answer, and a store of `Rotate`, find no streak; and `Rotate` does not store between the load
and the decision of a round. -/
def Undisturbed (s : State n) : Action n → Prop
  | .score pings => (∀ i, pings i = none) → s.streak = 0
  | .rotateStore _ => s.streak = 0 ∧ s.scored.isNone
  | _ => True

instance (s : State n) (a : Action n) : Decidable (Undisturbed s a) :=
  match a with
  | .score pings => inferInstanceAs (Decidable ((∀ i, pings i = none) → s.streak = 0))
  | .rotateStore _ => inferInstanceAs (Decidable (s.streak = 0 ∧ s.scored.isNone))
  | .decide => isTrue trivial
  | .rotateLoad => isTrue trivial

end ArangeTun.Steering
