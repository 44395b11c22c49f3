import ArangeTun.Steering.Model

/-! # Health steering: hysteresis -/

namespace ArangeTun.Steering

open Transition List Option

variable {n : Nat}

/-! ## The best endpoint -/

def BestOn (scores : Fin n → EndpointScore) (l : List (Fin n)) : Option (Fin n) → Prop
  | none => ∀ i ∈ l, (scores i).reachable = false
  | some b => (scores b).reachable = true ∧ ∀ i ∈ l, (scores i).reachable = true → (scores b).score ≤ (scores i).score

theorem BestOn.better {scores : Fin n → EndpointScore} {l : List (Fin n)} {best : Option (Fin n)}
    (h : BestOn scores l best) (i : Fin n) : BestOn scores (l ++ [i]) (better scores best i) := by
  cases best with
  | none =>
    by_cases hi : (scores i).reachable = true
    · rw [Steering.better, if_pos hi]
      refine ⟨hi, fun j hj hreach => ?_⟩
      rcases mem_append.mp hj with hj | hj
      · rw [h j hj] at hreach
        cases hreach
      · rw [mem_singleton.mp hj]
    · rw [Steering.better, if_neg hi]
      intro j hj
      rcases mem_append.mp hj with hj | hj
      · exact h j hj
      · rw [mem_singleton.mp hj]
        exact Bool.eq_false_iff.mpr hi
  | some b =>
    obtain ⟨hb, hmin⟩ := h
    by_cases hi : (scores i).reachable = true ∧ (scores i).score < (scores b).score
    · rw [Steering.better, if_pos hi]
      refine ⟨hi.1, fun j hj hreach => ?_⟩
      rcases mem_append.mp hj with hj | hj
      · exact hi.2.le.trans (hmin j hj hreach)
      · rw [mem_singleton.mp hj]
    · rw [Steering.better, if_neg hi]
      refine ⟨hb, fun j hj hreach => ?_⟩
      rcases mem_append.mp hj with hj | hj
      · exact hmin j hj hreach
      · obtain rfl := mem_singleton.mp hj
        exact not_lt.mp fun hlt => hi ⟨hreach, hlt⟩

theorem BestOn.foldl {scores : Fin n → EndpointScore} {l : List (Fin n)} {best : Option (Fin n)}
    (h : BestOn scores l best) (rest : List (Fin n)) :
    BestOn scores (l ++ rest) (rest.foldl (Steering.better scores) best) := by
  induction rest generalizing l best with
  | nil => rwa [append_nil]
  | cons i rest ih =>
    have := ih (h.better i)
    rwa [append_assoc] at this

theorem bestOn_bestOf (scores : Fin n → EndpointScore) : BestOn scores (List.finRange n) (bestOf scores) := by
  have hnil : BestOn scores [] none := fun _ hi => absurd hi not_mem_nil
  exact hnil.foldl (List.finRange n)

theorem isBest_of_bestOf {scores : Fin n → EndpointScore} {b : Fin n} (h : bestOf scores = some b) :
    IsBest scores b := by
  have hbest := bestOn_bestOf scores
  rw [h] at hbest
  exact ⟨hbest.1, fun i => hbest.2 i (mem_finRange i)⟩

theorem pings_of_bestOf {pings : Fin n → Option Ping} (h : bestOf (fun i => scoreEndpoint (pings i)) = none)
    (i : Fin n) : pings i = none := by
  have hbest := bestOn_bestOf fun i => scoreEndpoint (pings i)
  rw [h] at hbest
  have hi : (scoreEndpoint (pings i)).reachable = false := hbest i (mem_finRange i)
  cases hp : pings i with
  | none => rfl
  | some p =>
    rw [hp] at hi
    cases hi

/-! ## Runs -/

section

variable [NeZero n] {s s' : State n}

/-- The rounds of the streak favour the candidate over the endpoint that is preferred now. -/
structure Inv (s : State n) : Prop where
  streak : ∀ b, s.candidate = some b →
    s.streak ≤ s.rounds.length ∧ ∀ r ∈ s.rounds.take s.streak, r.Favours (clamped n s.preferred) b
  scored : ∀ r, s.scored = some r → r.cur = clamped n s.preferred ∧ IsBest r.scores r.best
  moves : ∀ m ∈ s.moves, m.Hysteresis

theorem Inv.reset (hs : s.scored = none) (hmoves : ∀ m ∈ s.moves, m.Hysteresis) : Inv s.reset :=
  ⟨fun b hb => (by cases hb), fun r hr => (by rw [State.reset, hs] at hr; cases hr), hmoves⟩

theorem Inv.favoured (h : Inv s) {r : Scored n} (hr : s.scored = some r)
    (hbetter : (r.scores r.best).score ≤ betterBy * (r.scores r.cur).score) {streak : Nat}
    (hstreak : streak = if s.candidate = some r.best then s.streak + 1 else 1) :
    streak ≤ s.rounds.length + 1 ∧
      ∀ r' ∈ (Round.mk r.scores r.cur :: s.rounds).take streak, r'.Favours r.cur r.best := by
  obtain ⟨hcur, hbest⟩ := h.scored r hr
  have hnow : (Round.mk r.scores r.cur).Favours r.cur r.best := ⟨rfl, hbest, hbetter⟩
  by_cases hc : s.candidate = some r.best
  · obtain ⟨hlen, hall⟩ := h.streak r.best hc
    rw [if_pos hc] at hstreak
    subst hstreak
    refine ⟨by omega, fun r' hr' => ?_⟩
    rw [take_succ_cons] at hr'
    rcases mem_cons.mp hr' with rfl | hr'
    · exact hnow
    · rw [hcur]
      exact hall r' hr'
  · rw [if_neg hc] at hstreak
    subst hstreak
    refine ⟨by omega, fun r' hr' => ?_⟩
    rw [take_succ_cons, take_zero] at hr'
    rw [mem_singleton.mp hr']
    exact hnow

theorem Inv.settle (h : Inv s) {r : Scored n} (hr : s.scored = some r) : Inv (s.settle r) := by
  unfold State.settle
  simp only
  split
  · exact .reset rfl h.moves
  · split
    · exact .reset rfl h.moves
    · rename_i hne hclear
      generalize hstreak : (if s.candidate = some r.best then s.streak + 1 else 1) = streak
      split
      · rename_i hmove
        refine .reset rfl fun m hm => ?_
        rcases mem_cons.mp hm with rfl | hm
        · intro hreach
          have halive : (r.scores r.cur).reachable = true := hreach _ (mem_singleton_self _)
          simp only [halive, Bool.not_true, Bool.not_false, Bool.true_and, Bool.false_or, decide_eq_true_eq,
            Bool.not_eq_true', decide_eq_false_iff_not, not_not] at hclear hmove
          obtain ⟨hlen, hall⟩ := h.favoured hr hclear hstreak.symm
          exact ⟨hmove.trans hlen, fun r' hr' => hall r' (take_subset_take_left _ hmove hr')⟩
        · exact h.moves m hm
      · rename_i hstay
        simp only [Bool.or_eq_true, Bool.not_eq_true', decide_eq_true_eq, not_or, Bool.not_eq_false] at hstay
        simp only [hstay.1, Bool.not_true, Bool.not_false, Bool.true_and, Bool.not_eq_true', decide_eq_false_iff_not,
          not_not] at hclear
        obtain ⟨hlen, hall⟩ := h.favoured hr hclear hstreak.symm
        refine ⟨fun b hb => ?_, fun r' hr' => ?_, h.moves⟩
        · obtain rfl := Option.some.inj hb
          refine ⟨hlen, fun r' hr' => ?_⟩
          rw [← (h.scored r hr).1]
          exact hall r' hr'
        · cases hr'

theorem step_inv {a : Action n} (h : Inv s) (hc : Undisturbed s a) (hs : step s a = some s') : Inv s' := by
  cases a with
  | score pings =>
    simp only [step] at hs
    split at hs
    · cases hs
    · rename_i hwait
      have hnone : s.scored = none := by simpa using hwait
      split at hs
      · rename_i hblank
        obtain rfl := Option.some.inj hs
        have hzero := hc (pings_of_bestOf hblank)
        refine ⟨fun b _ => ?_, fun r hr => ?_, h.moves⟩
        · simp [hzero]
        · simp only [hnone] at hr
          cases hr
      · rename_i best hbest
        obtain rfl := Option.some.inj hs
        refine ⟨h.streak, fun r hr => ?_, h.moves⟩
        obtain rfl := Option.some.inj hr
        exact ⟨rfl, isBest_of_bestOf hbest⟩
  | decide =>
    obtain ⟨r, hr, rfl⟩ := map_eq_some_iff.mp hs
    exact h.settle hr
  | rotateLoad =>
    obtain rfl := Option.some.inj hs
    exact ⟨h.streak, h.scored, h.moves⟩
  | rotateStore v =>
    obtain ⟨-, hs⟩ := ite_none_right_eq_some.mp hs
    obtain rfl := Option.some.inj hs
    obtain ⟨hzero, hwait⟩ := hc
    refine ⟨fun b _ => ?_, fun r hr => ?_, h.moves⟩
    · simp [hzero]
    · simp only [isNone_iff_eq_none.mp hwait] at hr
      cases hr

end

/-- Where no round without an answer and no `Rotate` falls into a streak, the loop leaves a reachable endpoint only
after three rounds in a row that favour the other one. -/
theorem steering_has_hysteresis (n : Nat) [NeZero n] (idx : Int) (s : State n)
    (h : Reach step Undisturbed (.initial idx) s) : ∀ m ∈ s.moves, m.Hysteresis := by
  have hinv : Inv s := by
    refine h.invariant ⟨fun b hb => ?_, fun r hr => ?_, fun m hm => ?_⟩ fun s a s' h hc hs => step_inv h hc hs
    · cases hb
    · cases hr
    · cases hm
  exact hinv.moves

theorem steering_has_hysteresis_two :
    ∃ s : State 2, Reach step Undisturbed (.initial 0) s ∧ s.preferred = 1 ∧ s.moves.length = 1 ∧
      ∀ m ∈ s.moves, m.Hysteresis := by
  let pings (i : Fin 2) : Option Ping := if i = 0 then some ⟨100, 0, 0⟩ else some ⟨10, 5, 0⟩
  obtain ⟨s, hs, hpref, hmoves⟩ : ∃ s : State 2, Reach step Undisturbed (.initial 0) s ∧ s.preferred = 1 ∧
      s.moves.length = 1 := exists_reach
    [.score fun _ => none, .score pings, .decide, .rotateLoad, .score pings, .decide, .score pings, .decide]
    (by decide +kernel)
  exact ⟨s, hs, hpref, hmoves, steering_has_hysteresis 2 0 s hs⟩

/-- Two rounds favour the endpoint 1, then nothing answers, and the next round moves to it. -/
theorem streak_survives_blank_round_and_rotate :
    (∃ s : State 2, Reach step Any (.initial 0) s ∧ ∃ m ∈ s.moves, m.source = 0 ∧ m.target = 1 ∧ ¬ m.Hysteresis) ∧
    ∃ s : State 3, Reach step Any (.initial 0) s ∧ ∃ m ∈ s.moves, m.source = 1 ∧ m.target = 2 ∧ ¬ m.Hysteresis := by
  let two (i : Fin 2) : Option Ping := if i = 0 then some ⟨100, 0, 0⟩ else some ⟨10, 0, 0⟩
  let three (i : Fin 3) : Option Ping := if i = 2 then some ⟨10, 0, 0⟩ else some ⟨100, 0, 0⟩
  constructor
  · exact exists_reach
      [.score two, .decide, .score two, .decide, .score fun _ => none, .score two, .decide] (by decide +kernel)
  · exact exists_reach
      [.score three, .decide, .score three, .decide, .rotateLoad, .rotateStore 0, .score three, .decide]
      (by decide +kernel)

end ArangeTun.Steering
