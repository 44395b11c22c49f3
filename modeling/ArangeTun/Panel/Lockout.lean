import ArangeTun.Panel.Requests

/-! # The lockout of an address -/

namespace ArangeTun.Panel

open Go Transition List Option

/-! ## What is kept of one address -/

namespace Limiter

inductive Op
  | blocked
  | fail
  | reset
  deriving DecidableEq

structure Call where
  time : Nat
  ip : Str
  op : Op
  deriving DecidableEq

def handle (l : Limiter) (c : Call) : Limiter :=
  match c.op with
  | .blocked => (l.blocked c.time c.ip).2
  | .fail => l.fail c.time c.ip
  | .reset => l.reset c.ip

def answers (a : Str) : Limiter → List Call → List (Option Nat)
  | _, [] => []
  | l, c :: cs =>
    (if c.ip = a ∧ c.op = .blocked then [(l.blocked c.time a).1] else []) ++ answers a (l.handle c) cs

def Lapsed (l : Limiter) (a : Str) (now : Nat) : Prop :=
  (l.blockedUntil a).any (· < now) = true ∧ (l.fails a).any (now ≤ ·.exp) = true

instance (l : Limiter) (a : Str) (now : Nat) : Decidable (l.Lapsed a now) := inferInstanceAs (Decidable (_ ∧ _))

/-- Nobody else fails to log in between the end of a block of the address and the next call for it. -/
def Undisturbed (a : Str) : Limiter → List Call → Prop
  | _, [] => True
  | l, c :: cs => ¬ (c.ip ≠ a ∧ c.op = .fail ∧ l.Lapsed a c.time) ∧ Undisturbed a (l.handle c) cs

instance decidableUndisturbed (a : Str) : ∀ l cs, Decidable (Undisturbed a l cs)
  | _, [] => isTrue trivial
  | l, c :: cs => @instDecidableAnd _ _ _ (decidableUndisturbed a (l.handle c) cs)

abbrev Record := Option (FailCount × Option Nat)

namespace Record

def current (now : Nat) (r : Record) : Record := r.filter fun x => decide (now ≤ x.1.exp)

def left (now : Nat) (r : Record) : Option Nat :=
  (r.bind Prod.snd).bind fun t => if now < t then some (t - now) else none

def next (now : Nat) (r : Record) : Op → Record
  | .blocked =>
    match r with
    | some (_, some t) => if now < t then r else none
    | _ => r
  | .fail =>
    let n := (r.map fun x => x.1.n).getD 0
    some (⟨n + 1, now + loginFailTTL⟩, if loginMaxFails ≤ n + 1 then some (now + loginBlockPeriod) else none)
  | .reset => none

def answers : Record → List Call → List (Option Nat)
  | _, [] => []
  | r, c :: cs =>
    (if c.op = .blocked then [(r.current c.time).left c.time] else []) ++
      answers ((r.current c.time).next c.time c.op) cs

@[simp] theorem current_none {now : Nat} : current now none = none := rfl

theorem current_some {now : Nat} {x : FailCount × Option Nat} :
    current now (some x) = if now ≤ x.1.exp then some x else none := by
  simp [current, filter_some]

theorem current_current {r : Record} {now now' : Nat} (h : now ≤ now') :
    (r.current now).current now' = r.current now' := by
  unfold current
  rw [Option.filter_filter]
  congr 1
  funext x
  simp only [← Bool.decide_and, decide_eq_decide]
  omega

end Record

def record (l : Limiter) (a : Str) : Record := (l.fails a).map (·, l.blockedUntil a)

def Backed (l : Limiter) (a : Str) : Prop :=
  ∀ t, l.blockedUntil a = some t → ∃ f, l.fails a = some f ∧ t ≤ f.exp ∧ loginMaxFails ≤ f.n

variable {l : Limiter} {a ip : Str} {now : Nat} {c : Call} {cs : List Call}

theorem Backed.record_eq (h : l.Backed a) {t : Nat} (ht : l.blockedUntil a = some t) :
    ∃ f, l.record a = some (f, some t) ∧ t ≤ f.exp ∧ loginMaxFails ≤ f.n := by
  obtain ⟨f, hf, hrest⟩ := h t ht
  exact ⟨f, by rw [record, hf, ht]; rfl, hrest⟩

theorem record_of_not_blocked (h : l.blockedUntil a = none) : l.record a = (l.fails a).map (·, none) := by
  rw [record, h]

theorem blocked_left (h : l.Backed a) : (l.blocked now a).1 = ((l.record a).current now).left now := by
  unfold blocked
  cases ht : l.blockedUntil a with
  | none =>
    rw [record_of_not_blocked ht]
    cases l.fails a with
    | none => rfl
    | some f =>
      dsimp only
      rw [map_some, Record.current_some]
      split <;> rfl
  | some t =>
    obtain ⟨f, hr, hexp, -⟩ := h.record_eq ht
    rw [hr, Record.current_some]
    by_cases hlt : now < t
    · have hlive : now ≤ f.exp := by omega
      simp [Record.left, hlt, hlive]
    · simp only [if_neg hlt]
      split <;> simp [Record.left, hlt]

theorem record_blocked (h : l.Backed a) :
    ((l.blocked now a).2.record a).current now = ((l.record a).current now).next now .blocked := by
  unfold blocked
  cases ht : l.blockedUntil a with
  | none =>
    rw [record_of_not_blocked ht]
    cases l.fails a with
    | none => rfl
    | some f =>
      rw [map_some, Record.current_some]
      split <;> rfl
  | some t =>
    obtain ⟨f, hr, hexp, -⟩ := h.record_eq ht
    by_cases hlt : now < t
    · have hlive : now ≤ f.exp := by omega
      simp [Record.next, Record.current_some, hlt, hlive, hr]
    · have hgone : (Limiter.mk (l.fails.delete a) (l.blockedUntil.delete a)).record a = none := by simp [record]
      simp only [if_neg hlt, hgone, hr, Record.current_some]
      split <;> simp [Record.next, hlt]

theorem Backed.live (h : l.Backed a) {t : Nat} (ht : l.blockedUntil a = some t) (hlive : now ≤ t) :
    ∃ f, l.fails a = some f ∧ now ≤ f.exp ∧ loginMaxFails ≤ f.n := by
  obtain ⟨f, hf, hexp, hn⟩ := h t ht
  exact ⟨f, hf, by omega, hn⟩

def counted (l : Limiter) (a : Str) (now : Nat) : Nat := (((l.record a).current now).map fun x => x.1.n).getD 0

theorem fail_eq : l.fail now a =
    { fails := (l.sweepLocked now).fails.set a ⟨l.counted a now + 1, now + loginFailTTL⟩
      blockedUntil :=
        if loginMaxFails ≤ l.counted a now + 1 then (l.sweepLocked now).blockedUntil.set a (now + loginBlockPeriod)
        else (l.sweepLocked now).blockedUntil } := by
  have hswept : (l.sweepLocked now).fails a = (l.fails a).filter fun f => decide (now ≤ f.exp) := rfl
  unfold fail counted record
  dsimp only
  rw [hswept]
  cases l.fails a with
  | none => rfl
  | some f =>
    rw [map_some, Record.current_some]
    by_cases hlive : now ≤ f.exp
    · simp [filter_some, hlive, Nat.not_lt.mpr hlive]
    · simp [filter_some, hlive]

theorem Backed.sweepLocked_blockedUntil (h : l.Backed a) (hn : l.counted a now + 1 < loginMaxFails) :
    (l.sweepLocked now).blockedUntil a = none := by
  refine eq_none_iff_forall_not_mem.mpr fun t ht => ?_
  obtain ⟨ht, hlive⟩ := filter_eq_some_iff.mp ht
  obtain ⟨f, hf, hexp, hmax⟩ := h.live ht (of_decide_eq_true hlive)
  have hcount : l.counted a now = f.n := by simp [counted, record, hf, Record.current_some, hexp]
  omega

theorem record_fail (h : l.Backed a) :
    ((l.fail now a).record a).current now = ((l.record a).current now).next now .fail := by
  have hexp : now ≤ now + loginFailTTL := Nat.le_add_right ..
  change _ = some ((⟨l.counted a now + 1, now + loginFailTTL⟩ : FailCount),
    if loginMaxFails ≤ l.counted a now + 1 then some (now + loginBlockPeriod) else none)
  rw [fail_eq, record]
  dsimp only
  rw [Map.set_self, map_some, Record.current_some, if_pos hexp]
  split
  · rw [Map.set_self]
  next hn => rw [h.sweepLocked_blockedUntil (Nat.not_le.mp hn)]

theorem record_own (h : l.Backed a) (hc : c.ip = a) :
    ((l.handle c).record a).current c.time = ((l.record a).current c.time).next c.time c.op := by
  subst hc
  unfold handle
  cases c.op with
  | blocked => exact record_blocked h
  | fail => exact record_fail h
  | reset => simp [reset, record, Record.next]

theorem handle_other (hne : c.ip ≠ a) (hop : c.op ≠ .fail) :
    (l.handle c).fails a = l.fails a ∧ (l.handle c).blockedUntil a = l.blockedUntil a := by
  have hdelete : (l.fails.delete c.ip) a = l.fails a ∧ (l.blockedUntil.delete c.ip) a = l.blockedUntil a :=
    ⟨Map.delete_of_ne hne.symm, Map.delete_of_ne hne.symm⟩
  unfold handle
  cases h : c.op with
  | blocked =>
    dsimp only [blocked]
    split
    · exact ⟨rfl, rfl⟩
    · split
      · exact ⟨rfl, rfl⟩
      · exact hdelete
  | fail => exact absurd h hop
  | reset => exact hdelete

theorem fail_other (hne : ip ≠ a) : (l.fail now ip).fails a = (l.sweepLocked now).fails a ∧
    (l.fail now ip).blockedUntil a = (l.sweepLocked now).blockedUntil a := by
  rw [fail_eq]
  refine ⟨Map.set_of_ne hne.symm, ?_⟩
  split
  · exact Map.set_of_ne hne.symm
  · rfl

theorem record_sweepLocked (h : ¬ l.Lapsed a now) :
    ((l.sweepLocked now).record a).current now = (l.record a).current now := by
  unfold record sweepLocked
  dsimp only
  cases hf : l.fails a with
  | none => rfl
  | some f =>
    by_cases hexp : now ≤ f.exp
    · have hkept : (l.blockedUntil a).filter (fun t => decide (now ≤ t)) = l.blockedUntil a := by
        cases ht : l.blockedUntil a with
        | none => rfl
        | some t =>
          have hle : now ≤ t := by
            by_contra hlt
            exact h ⟨by simpa [ht] using hlt, by simp [hf, hexp]⟩
          simp [filter_some, hle]
      simp [filter_some, hexp, hkept]
    · simp [filter_some, hexp, Record.current_some]

theorem record_other (hne : c.ip ≠ a) (h : ¬ (c.op = .fail ∧ l.Lapsed a c.time)) :
    ((l.handle c).record a).current c.time = (l.record a).current c.time := by
  by_cases hop : c.op = .fail
  · have hlapsed : ¬ l.Lapsed a c.time := fun hl => h ⟨hop, hl⟩
    have hfail : l.handle c = l.fail c.time c.ip := by rw [handle, hop]
    rw [hfail, record, (fail_other hne).1, (fail_other hne).2]
    exact record_sweepLocked hlapsed
  · obtain ⟨hf, hb⟩ := @handle_other l a c hne hop
    rw [record, hf, hb, record]

theorem Backed.blocked (h : l.Backed a) : (l.blocked now a).2.Backed a := by
  unfold Limiter.blocked
  cases ht : l.blockedUntil a with
  | none => exact h
  | some t =>
    dsimp only
    split
    · exact h
    · intro t ht
      simp at ht

theorem Backed.handle (h : l.Backed a) (c : Call) : (l.handle c).Backed a := by
  intro t ht
  by_cases hop : c.op = .fail
  · rw [Limiter.handle, hop] at ht ⊢
    by_cases hne : c.ip = a
    · subst hne
      rw [fail_eq] at ht ⊢
      dsimp only at ht ⊢
      refine ⟨_, Map.set_self, ?_⟩
      split at ht
      next hmax =>
        obtain rfl := Option.some.inj (Map.set_self.symm.trans ht)
        exact ⟨by simp only [loginBlockPeriod, loginFailTTL]; omega, hmax⟩
      next hmax =>
        rw [h.sweepLocked_blockedUntil (Nat.not_le.mp hmax)] at ht
        cases ht
    · rw [(fail_other hne).2] at ht
      rw [(fail_other hne).1]
      obtain ⟨ht, hlive⟩ := filter_eq_some_iff.mp ht
      obtain ⟨f, hf, hexp, hn⟩ := h t ht
      have hkept : c.time ≤ f.exp := (of_decide_eq_true hlive).trans hexp
      exact ⟨f, by simp [sweepLocked, hf, hkept, filter_some], hexp, hn⟩
  · by_cases hne : c.ip = a
    · subst hne
      unfold Limiter.handle at ht ⊢
      cases hc : c.op with
      | blocked =>
        rw [hc] at ht
        exact h.blocked t ht
      | fail => exact absurd hc hop
      | reset => simp [hc, reset] at ht
    · obtain ⟨hf, hb⟩ := @handle_other l a c hne hop
      rw [hb] at ht
      rw [hf]
      exact h t ht

theorem answers_eq_own {r : Record} (hback : l.Backed a) (hsame : (l.record a).current now = r.current now)
    (hle : ∀ c ∈ cs, now ≤ c.time) (hsorted : cs.Pairwise (·.time ≤ ·.time)) (hcalm : Undisturbed a l cs) :
    l.answers a cs = r.answers (cs.filter (·.ip = a)) := by
  induction cs generalizing l r now with
  | nil => rfl
  | cons c cs ih =>
    obtain ⟨hlater, hsorted⟩ := pairwise_cons.mp hsorted
    have htime : (l.record a).current c.time = r.current c.time := by
      have hc := hle c (.head _)
      rw [← Record.current_current hc, hsame, Record.current_current hc]
    by_cases hc : c.ip = a
    · have hown := record_own hback hc
      rw [htime] at hown
      rw [filter_cons_of_pos (by simpa using hc), answers, Record.answers, blocked_left hback, htime,
        ih (hback.handle c) (hown.trans (hown ▸ Record.current_current (Nat.le_refl _)).symm) hlater hsorted hcalm.2]
      simp [hc]
    · have hother := record_other hc fun h => hcalm.1 ⟨hc, h⟩
      rw [filter_cons_of_neg (by simpa using hc), answers, ih (hback.handle c) (hother.trans htime) hlater hsorted
        hcalm.2]
      simp [hc]

/-- Two histories that agree on the calls for an address get the same answers for it, if nobody else fails to log in
while its block is over and its failures still count. -/
theorem answers_of_own_calls {h₁ h₂ : List Call} (hs₁ : h₁.Pairwise (·.time ≤ ·.time))
    (hs₂ : h₂.Pairwise (·.time ≤ ·.time)) (hcalm₁ : Undisturbed a {} h₁) (hcalm₂ : Undisturbed a {} h₂)
    (hown : h₁.filter (·.ip = a) = h₂.filter (·.ip = a)) : answers a {} h₁ = answers a {} h₂ := by
  have hback : Backed {} a := fun t ht => by cases ht
  have hnone : (record {} a).current 0 = Record.current 0 none := rfl
  rw [answers_eq_own hback hnone (fun _ _ => Nat.zero_le _) hs₁ hcalm₁,
    answers_eq_own hback hnone (fun _ _ => Nat.zero_le _) hs₂ hcalm₂, hown]

/-- Five failures at once, and one more when the block of ten minutes is over. -/
def sixFailures : List Call :=
  List.replicate 5 ⟨0, lit "192.0.2.1", .fail⟩ ++
    [⟨11 * minute, lit "192.0.2.1", .blocked⟩, ⟨11 * minute, lit "192.0.2.1", .fail⟩,
      ⟨11 * minute, lit "192.0.2.1", .blocked⟩]

def withStranger (time : Nat) : List Call :=
  sixFailures.take 5 ++ ⟨time, lit "198.51.100.7", .fail⟩ :: sixFailures.drop 5

theorem stranger_within_block : answers (lit "192.0.2.1") {} sixFailures = [none, none] ∧
    answers (lit "192.0.2.1") {} sixFailures = answers (lit "192.0.2.1") {} (withStranger minute) :=
  ⟨by decide +kernel, answers_of_own_calls (by decide +kernel) (by decide +kernel) (by decide +kernel)
    (by decide +kernel) (by decide +kernel)⟩

/-- The failure of the other address sweeps the block away and leaves the count, so that a single failure locks the
address out again. -/
theorem stranger_after_block :
    (withStranger (11 * minute)).Pairwise (·.time ≤ ·.time) ∧ sixFailures.Pairwise (·.time ≤ ·.time) ∧
      (withStranger (11 * minute)).filter (·.ip = lit "192.0.2.1") = sixFailures.filter (·.ip = lit "192.0.2.1") ∧
      answers (lit "192.0.2.1") {} sixFailures = [none, none] ∧
      answers (lit "192.0.2.1") {} (withStranger (11 * minute)) = [none, some loginBlockPeriod] := by
  decide +kernel

end Limiter

end ArangeTun.Panel
