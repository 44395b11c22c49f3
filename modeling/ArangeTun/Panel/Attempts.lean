import ArangeTun.Panel.Lockout

/-! # How many passwords one address can try -/

namespace ArangeTun.Panel

open Go Transition Limiter List Option Record

def Pc.asks (a : Str) : Pc → Bool
  | .compare ip _ | .fail ip | .reset ip _ => ip = a
  | _ => false

/-- Whether the password is the right one, for a step that compares one from the address. -/
def compared (a : Str) (s : State) : Action → Option Bool
  | .move i _ =>
    match s.threads[i]? with
    | some (.compare ip given) => if ip = a then some (given = s.shared.saved.filled.password) else none
    | _ => none
  | _ => none

/-- The panel, with the times of the comparisons that have failed for the address. -/
def watched (json : Json) (a : Str) (w : State × List Nat) (act : Action) : Option (State × List Nat) :=
  ((panel json).step w.1 act).map (·, if compared a w.1 act = some false then w.2 ++ [w.1.shared.now] else w.2)

def OnlyWrong (a : Str) (w : State × List Nat) (act : Action) : Prop := compared a w.1 act ≠ some true

def arrives (a : Str) : Action → Bool
  | .enter (.login ip _) => ip = a
  | _ => false

/-- A login of the address begins when those before it have been counted. -/
def OneByOne (a : Str) (w : State × List Nat) (act : Action) : Prop :=
  OnlyWrong a w act ∧ (arrives a act = true → w.1.threads.filter (Pc.asks a) = [])

instance (a : Str) (w : State × List Nat) (act : Action) : Decidable (OnlyWrong a w act) :=
  inferInstanceAs (Decidable (¬ _))

instance (a : Str) (w : State × List Nat) (act : Action) : Decidable (OneByOne a w act) :=
  inferInstanceAs (Decidable (_ ∧ _))

/-! ## The count -/

def Elsewhere (a : Str) (sh sh' : Shared) : Prop :=
  sh'.now = sh.now ∧ (sh'.server.limiter = sh.server.limiter ∨
    ∃ ip op, ip ≠ a ∧ sh'.server.limiter = sh.server.limiter.handle ⟨sh.now, ip, op⟩)

variable {json : Json} {sh sh' : Shared} {i : Nat} {p p' : Pc} {a : Str} {x : Input} {r : Arrival}

theorem Elsewhere.call {ip : Str} (op : Op) (hne : ip ≠ a) :
    Elsewhere a sh (sh.setLimiter (sh.server.limiter.handle ⟨sh.now, ip, op⟩)) := ⟨rfl, .inr ⟨ip, op, hne, rfl⟩⟩

theorem elsewhere_of_limiter (hnow : sh'.now = sh.now) (h : sh'.server.limiter = sh.server.limiter) :
    Elsewhere a sh sh' := ⟨hnow, .inl h⟩

theorem Pc.asks_ite {c : Prop} [Decidable c] {q : Pc} (hp : p.asks a = false) (hq : q.asks a = false) :
    (if c then p else q).asks a = false := by
  split
  · exact hp
  · exact hq

theorem enter_elsewhere (h : enter sh i r = (sh', p)) (hr : ∀ given, r ≠ .login a given) :
    Elsewhere a sh sh' ∧ p.asks a = false := by
  obtain ⟨rfl, rfl⟩ := Prod.mk.inj h.symm
  cases r with
  | login ip given =>
    have hne : ip ≠ a := fun h => hr given (by rw [h])
    exact ⟨.call .blocked hne, Pc.asks_ite rfl (decide_eq_false hne)⟩
  | login2FA ip token given =>
    have hverify : Elsewhere a sh (sh.verify i token (trimSpace given)).1 := by
      unfold Shared.verify
      dsimp only
      split <;> exact elsewhere_of_limiter rfl rfl
    exact ⟨hverify, Pc.asks_ite rfl rfl⟩
  | edit cookie e => exact ⟨elsewhere_of_limiter rfl rfl, Pc.asks_ite rfl rfl⟩
  | logout tok => exact ⟨elsewhere_of_limiter rfl rfl, rfl⟩
  | revokeOthers cookie =>
    have hrevoked : Elsewhere a sh (arriveRevokeOthers sh cookie).1 := by
      unfold arriveRevokeOthers
      dsimp only
      split <;> exact elsewhere_of_limiter rfl rfl
    exact ⟨hrevoked, rfl⟩

theorem move_elsewhere (h : move json sh i p x = some (sh', p')) (hp : p.asks a = false) :
    Elsewhere a sh sh' ∧ p'.asks a = false := by
  cases p with
  | compare ip given =>
    cases h
    refine ⟨elsewhere_of_limiter rfl rfl, ?_⟩
    split <;> exact hp
  | fail ip =>
    cases h
    exact ⟨.call .fail (of_decide_eq_false hp), rfl⟩
  | reset ip given =>
    cases h
    exact ⟨.call .reset (of_decide_eq_false hp), rfl⟩
  | start given =>
    simp only [move, ite_none_left_eq_some, Option.some.injEq, Prod.mk.injEq] at h
    obtain ⟨-, rfl, rfl⟩ := h
    exact ⟨elsewhere_of_limiter rfl rfl, rfl⟩
  | save e c =>
    simp only [move] at h
    split at h <;> cases h
    · refine ⟨elsewhere_of_limiter rfl rfl, ?_⟩
      cases e <;> rfl
    · exact ⟨elsewhere_of_limiter rfl rfl, rfl⟩
  | done => cases h
  | readTwoFA | readTelegram | send =>
    cases h
    exact ⟨elsewhere_of_limiter rfl rfl, by split <;> rfl⟩
  | cancel | create | createCode | load | clear | answer =>
    cases h
    exact ⟨elsewhere_of_limiter rfl rfl, rfl⟩

/-- When the window that the first failure begins is over, and when the block after the fifth. -/
def windowEnd (ts : List Nat) : Nat := (ts.head?.map (· + loginFailTTL)).getD 0

def blockEnd (ts : List Nat) : Nat := (ts[loginMaxFails - 1]?.map (· + loginBlockPeriod)).getD 0

def Within (now : Nat) (ts : List Nat) : Prop :=
  (ts ≠ [] → now ≤ windowEnd ts) ∧ (loginMaxFails ≤ ts.length → now < blockEnd ts)

def tally (k e b : Nat) : Record := if k = 0 then none else some (⟨k, e⟩, if loginMaxFails ≤ k then some b else none)

structure Tally (a : Str) (l : Limiter) (now : Nat) (ts : List Nat) (k : Nat) : Prop where
  backed : l.Backed a
  record : ∃ e b, (l.record a).current now = tally k e b ∧ windowEnd ts ≤ e ∧ (loginMaxFails ≤ k → blockEnd ts ≤ b)

variable {l l' : Limiter} {now now' k : Nat} {ts : List Nat}

theorem Tally.of_record (h : Tally a l now ts k) (hback : l'.Backed a)
    (hrec : (l'.record a).current now = (l.record a).current now) : Tally a l' now ts k :=
  ⟨hback, by rw [hrec]; exact h.record⟩

theorem Tally.not_lapsed (h : Tally a l now ts k) (hk : loginMaxFails ≤ k → now < blockEnd ts) : ¬ l.Lapsed a now := by
  rintro ⟨hover, hcount⟩
  obtain ⟨t, ht, hlt⟩ := (Option.any_eq_true _ _).mp hover
  obtain ⟨f, hf, hexp⟩ := (Option.any_eq_true _ _).mp hcount
  obtain ⟨e, b, hrec, -, hb⟩ := h.record
  rw [Limiter.record, hf, ht, map_some, current_some, if_pos (of_decide_eq_true hexp), tally] at hrec
  split at hrec
  · cases hrec
  · split at hrec
    next hmax =>
      simp only [Option.some.injEq, Prod.mk.injEq] at hrec
      have := of_decide_eq_true hlt
      omega
    · simp at hrec

theorem Tally.elsewhere (h : Tally a sh.server.limiter sh.now ts k) (hk : loginMaxFails ≤ k → sh.now < blockEnd ts)
    (he : Elsewhere a sh sh') : Tally a sh'.server.limiter sh'.now ts k := by
  obtain ⟨hnow, hsame | ⟨ip, op, hne, hcall⟩⟩ := he
  · rw [hnow, hsame]
    exact h
  · rw [hnow, hcall]
    exact h.of_record (h.backed.handle _) (record_other hne fun hl => h.not_lapsed hk hl.2)

theorem Tally.later (h : Tally a l now ts k) (hle : now ≤ now') (hwindow : k ≠ 0 → now' ≤ windowEnd ts) :
    Tally a l now' ts k := by
  obtain ⟨e, b, hrec, he, hb⟩ := h.record
  refine ⟨h.backed, e, b, ?_, he, hb⟩
  rw [← current_current hle, hrec, tally]
  split
  · rfl
  next hk => exact current_some.trans (if_pos ((hwindow hk).trans he))

theorem Tally.blocked (h : Tally a l now ts k) (hk : loginMaxFails ≤ k → now < blockEnd ts) :
    Tally a (l.blocked now a).2 now ts k ∧ ((l.blocked now a).1.isSome ↔ loginMaxFails ≤ k) := by
  have hleft := @blocked_left l a now h.backed
  have hnext := @record_blocked l a now h.backed
  obtain ⟨e, b, hrec, -, hb⟩ := h.record
  have hlt : loginMaxFails ≤ k → now < b := fun hmax => (hk hmax).trans_le (hb hmax)
  have hstays : (tally k e b).next now .blocked = tally k e b ∧ ((tally k e b).left now).isSome = decide (loginMaxFails ≤ k) := by
    by_cases hmax : loginMaxFails ≤ k
    · have hne : k ≠ 0 := by rintro rfl; cases hmax
      simp [tally, Record.next, left, hmax, hlt hmax, hne]
    · unfold tally
      split <;> simp [Record.next, left, hmax]
  rw [hrec] at hleft hnext
  exact ⟨h.of_record h.backed.blocked (hnext.trans (hstays.1.trans hrec.symm)), by simp [hleft, hstays.2]⟩

theorem Tally.fail (h : Tally a l now ts k) (hpast : ∀ t ∈ ts, t ≤ now) : Tally a (l.fail now a) now ts (k + 1) := by
  have hwindow : windowEnd ts ≤ now + loginFailTTL := by
    cases ts with
    | nil => exact Nat.zero_le _
    | cons t ts => exact Nat.add_le_add_right (hpast t (.head _)) _
  have hblock : blockEnd ts ≤ now + loginBlockPeriod := by
    unfold blockEnd
    cases ht : ts[loginMaxFails - 1]? with
    | none => exact Nat.zero_le _
    | some t => exact Nat.add_le_add_right (hpast t (mem_of_getElem? ht)) _
  obtain ⟨e, b, hrec, -⟩ := h.record
  have hcount : ((tally k e b).map fun x => x.1.n).getD 0 = k := by
    unfold tally
    split
    next hk => exact hk.symm
    · rfl
  have hnext := @record_fail l a now h.backed
  simp only [hrec, Record.next, hcount] at hnext
  exact ⟨h.backed.handle ⟨now, a, .fail⟩, _, _, hnext.trans (by simp [tally]), hwindow, fun _ => hblock⟩

theorem Tally.concat (h : Tally a l now ts k) (hk : k < loginMaxFails) (hlen : ts.length = k) (t : Nat) :
    Tally a l now (ts ++ [t]) k := by
  obtain ⟨e, b, hrec, he, -⟩ := h.record
  cases ts with
  | nil =>
    subst hlen
    exact ⟨h.backed, t + loginFailTTL, b, hrec, Nat.le_refl _, fun hle => absurd hk (Nat.not_lt.mpr hle)⟩
  | cons t₀ ts => exact ⟨h.backed, e, b, hrec, he, fun hle => absurd hk (Nat.not_lt.mpr hle)⟩

/-! ## Runs -/

inductive Stands (a : Str) (n k : Nat) : List Pc → Prop
  | idle (hn : n = k) (hk : k ≤ loginMaxFails) : Stands a n k []
  | comparing {given : Str} (hn : n = k) (hk : k < loginMaxFails) : Stands a n k [.compare a given]
  | failing (hn : n = k + 1) (hk : k < loginMaxFails) : Stands a n k [.fail a]

theorem Stands.length_le {n : Nat} {ps : List Pc} (h : Stands a n k ps) : n ≤ loginMaxFails ∧ k ≤ n := by
  cases h <;> omega

theorem Stands.alone {n : Nat} {u v : List Pc} (h : Stands a n k (u ++ [p] ++ v)) :
    u = [] ∧ v = [] ∧ Stands a n k [p] := by
  have hlen : (u ++ [p] ++ v).length ≤ 1 := by
    generalize u ++ [p] ++ v = ps at h
    cases h <;> simp
  simp only [length_append, length_singleton] at hlen
  obtain rfl := eq_nil_of_length_eq_zero (show u.length = 0 by omega)
  obtain rfl := eq_nil_of_length_eq_zero (show v.length = 0 by omega)
  exact ⟨rfl, rfl, h⟩

/-- The failures are counted as they happen, as long as nothing of them is forgotten. -/
def Counted (a : Str) (w : State × List Nat) : Prop :=
  (∀ t ∈ w.2, t ≤ w.1.shared.now) ∧ (Within w.1.shared.now w.2 → ∃ k,
    Tally a w.1.shared.server.limiter w.1.shared.now w.2 k ∧ Stands a w.2.length k (w.1.threads.filter (Pc.asks a)))

theorem Within.init {t : Nat} (h : Within now (ts ++ [t])) : Within now ts := by
  refine ⟨fun hne => ?_, fun hlen => ?_⟩
  · have := h.1 (by simp)
    rwa [windowEnd, head?_append_of_ne_nil _ hne] at this
  · have := h.2 (by simp; omega)
    rwa [blockEnd, getElem?_append_left (by simp only [loginMaxFails] at hlen ⊢; omega)] at this

/-- The limiter keeps nothing of the address, and no request of it is under way. -/
def Forgotten (a : Str) (s : State) : Prop :=
  (∀ f, s.shared.server.limiter.fails a = some f → f.exp < s.shared.now) ∧
    s.shared.server.limiter.blockedUntil a = none ∧ s.threads.filter (Pc.asks a) = []

theorem Counted.init {s : State} (h : Forgotten a s) : Counted a (s, []) := by
  obtain ⟨hfails, hblocked, hidle⟩ := h
  refine ⟨by simp, fun _ => ⟨0, ⟨?_, 0, 0, ?_, Nat.zero_le _, nofun⟩, ?_⟩⟩
  · intro t ht
    rw [hblocked] at ht
    cases ht
  · rw [record]
    cases hf : s.shared.server.limiter.fails a with
    | none => rfl
    | some f => simp [current_some, hfails f hf, tally]
  · rw [hidle]
    exact .idle rfl (Nat.zero_le _)

theorem Counted.elsewhere {s s' : State} (h : Counted a (s, ts)) (helse : Elsewhere a s.shared s'.shared)
    (hsame : s'.threads.filter (Pc.asks a) = s.threads.filter (Pc.asks a)) : Counted a (s', ts) := by
  refine ⟨fun t ht => (h.1 t ht).trans_eq helse.1.symm, fun hwithin => ?_⟩
  have hbefore : Within s.shared.now ts := helse.1 ▸ hwithin
  obtain ⟨k, htally, hstands⟩ := h.2 hbefore
  refine ⟨k, htally.elsewhere (fun hk => hbefore.2 (hk.trans hstands.length_le.2)) helse, ?_⟩
  rw [hsame]
  exact hstands

theorem Counted.arrive {s : State} {given : Str} (h : Counted a (s, ts)) (hidle : s.threads.filter (Pc.asks a) = []) :
    Counted a (⟨(arriveLogin s.shared a given).1, s.threads ++ [(arriveLogin s.shared a given).2]⟩, ts) := by
  refine ⟨h.1, fun hwithin => ?_⟩
  obtain ⟨k, htally, hstands⟩ := h.2 hwithin
  rw [hidle] at hstands
  obtain ⟨hn, hk⟩ := hstands
  obtain ⟨hkept, hrefused⟩ := htally.blocked fun hk => hwithin.2 (hk.trans hn.ge)
  refine ⟨k, hkept, ?_⟩
  rw [filter_append, hidle, nil_append]
  unfold arriveLogin
  dsimp only at hrefused ⊢
  by_cases hmax : loginMaxFails ≤ k
  · rw [if_pos (hrefused.mpr hmax)]
    exact .idle hn hk
  · rw [if_neg (mt hrefused.mp hmax), filter_cons_of_pos (by simp [Pc.asks])]
    exact .comparing hn (Nat.not_le.mp hmax)

theorem Counted.move_own {s : State} (h : Counted a (s, ts)) (hwrong : OnlyWrong a (s, ts) (.move i x))
    (hi : s.threads[i]? = some p) (hp : p.asks a = true) (hstep : Panel.move json s.shared i p x = some (sh, p')) :
    Counted a (⟨sh, s.threads.set i p'⟩, if compared a s (.move i x) = some false then ts ++ [s.shared.now] else ts) := by
  obtain ⟨u, v, hthreads, hset⟩ := filter_set (Pc.asks a) hi
  rw [filter_cons_of_pos hp, filter_nil] at hthreads
  have halone : Within s.shared.now ts → ∃ k, Tally a s.shared.server.limiter s.shared.now ts k ∧
      Stands a ts.length k [p] ∧ (s.threads.set i p').filter (Pc.asks a) = [p'].filter (Pc.asks a) := by
    intro hwithin
    obtain ⟨k, htally, hstands⟩ := h.2 hwithin
    rw [hthreads] at hstands
    obtain ⟨rfl, rfl, hstands⟩ := hstands.alone
    exact ⟨k, htally, hstands, by simpa using hset p'⟩
  cases p with
  | compare ip given =>
    obtain rfl : ip = a := of_decide_eq_true hp
    have hcompares : compared ip s (.move i x) = some (decide (given = s.shared.saved.filled.password)) := by
      simp only [compared, hi, if_true]
    have hne : given ≠ s.shared.saved.filled.password := by
      intro heq
      exact hwrong (hcompares.trans (congrArg some (decide_eq_true heq)))
    simp only [Panel.move, if_neg hne, Option.some.injEq, Prod.mk.injEq] at hstep
    obtain ⟨rfl, rfl⟩ := hstep
    rw [hcompares, decide_eq_false hne, if_pos rfl]
    refine ⟨fun t ht => ?_, fun hwithin => ?_⟩
    · rcases mem_append.mp ht with ht | ht
      · exact h.1 t ht
      · exact Nat.le_of_eq (mem_singleton.mp ht)
    · obtain ⟨k, htally, hstands, hfilter⟩ := halone hwithin.init
      cases hstands with | comparing hn hk
      refine ⟨k, htally.concat hk hn _, ?_⟩
      rw [hfilter, filter_cons_of_pos (by simp [Pc.asks]), length_append, hn]
      exact .failing rfl hk
  | fail ip =>
    obtain rfl : ip = a := of_decide_eq_true hp
    have hcompares : compared ip s (.move i x) = none := by simp only [compared, hi]
    rw [hcompares]
    cases hstep
    refine ⟨h.1, fun hwithin => ?_⟩
    obtain ⟨k, htally, hstands, hfilter⟩ := halone hwithin
    cases hstands with | failing hn hk
    refine ⟨k + 1, htally.fail h.1, ?_⟩
    rw [hfilter]
    exact .idle hn hk
  | reset ip given =>
    have hcompares : compared a s (.move i x) = none := by simp only [compared, hi]
    rw [hcompares]
    cases hstep
    refine ⟨h.1, fun hwithin => ?_⟩
    obtain ⟨k, -, hstands, -⟩ := halone hwithin
    cases hstands
  | _ => cases hp

theorem Counted.step {w w' : State × List Nat} {act : Action} (h : Counted a w) (hone : OneByOne a w act)
    (hstep : watched json a w act = some w') : Counted a w' := by
  obtain ⟨s, ts⟩ := w
  obtain ⟨s', hs, rfl⟩ := map_eq_some_iff.mp hstep
  cases act with
  | enter r =>
    obtain rfl := Option.some.inj hs
    by_cases hr : ∃ given, r = .login a given
    · obtain ⟨given, rfl⟩ := hr
      exact h.arrive (hone.2 (decide_eq_true rfl))
    · obtain ⟨helse, hp⟩ := enter_elsewhere (@Prod.mk.eta _ _ (enter s.shared s.threads.length r)).symm
        fun given hr' => hr ⟨given, hr'⟩
      exact h.elsewhere helse (by simp [hp])
  | move i x =>
    obtain ⟨p, hi, hs⟩ := bind_eq_some_iff.mp hs
    obtain ⟨⟨sh, p'⟩, hp', rfl⟩ := map_eq_some_iff.mp hs
    by_cases hp : p.asks a = true
    · exact h.move_own hone.1 hi hp hp'
    · have hp := Bool.eq_false_of_not_eq_true hp
      obtain ⟨helse, hq⟩ := move_elsewhere hp' hp
      have hnot : compared a s (.move i x) = none := by
        simp only [compared, hi]
        cases p <;> simp_all [Pc.asks]
      rw [hnot]
      refine h.elsewhere helse ?_
      obtain ⟨u, v, hthreads, hset⟩ := filter_set (Pc.asks a) hi
      simp [hthreads, hset, hp, hq]
  | env e =>
    cases hs
    cases e with
    | telegram ready => exact h
    | tick d =>
      have hle : s.shared.now ≤ s.shared.now + d := Nat.le_add_right ..
      refine ⟨fun t ht => (h.1 t ht).trans hle, fun hwithin => ?_⟩
      obtain ⟨k, htally, hstands⟩ := h.2 ⟨fun hne => hle.trans (hwithin.1 hne), fun hn => hle.trans_lt (hwithin.2 hn)⟩
      refine ⟨k, htally.later hle fun hk => hwithin.1 ?_, hstands⟩
      rintro rfl
      exact hk (Nat.le_zero.mp hstands.length_le.2)

/-- When the logins of an address come one by one, at most five of its comparisons fail before it is blocked. -/
theorem five_failures_lock_out {s₀ : State} {w : State × List Nat} (h₀ : Forgotten a s₀)
    (h : Reach (watched json a) (OneByOne a) (s₀, []) w) (hwithin : Within w.1.shared.now w.2) :
    w.2.length ≤ loginMaxFails ∧ (w.2.length = loginMaxFails → w.1.threads.filter (Pc.asks a) = [] →
      ∀ given, (arriveLogin w.1.shared a given).2 = .done) := by
  have hcounted : Counted a w := h.invariant (.init h₀) fun _ _ _ hw hone hstep => hw.step hone hstep
  obtain ⟨k, htally, hstands⟩ := hcounted.2 hwithin
  refine ⟨hstands.length_le.1, fun hfive hidle given => ?_⟩
  rw [hidle] at hstands
  obtain ⟨hn, -⟩ := hstands
  exact if_pos ((htally.blocked fun _ => hwithin.2 hfive.ge).2.mpr (by omega))

def address : Str := lit "203.0.113.9"

def wrongLogin : Action := .enter (.login address (lit "00000000"))

def settings : State := .initial plainJson 0 { password := lit "12345678" } false

def login (i : Nat) : List Action := [wrongLogin, .move i {}, .move i {}]

theorem five_failures_lock_out_address : ∃ w, Reach (watched plainJson address) (OneByOne address) (settings, []) w ∧
    (w.2.length = 5 ∧ w.1.threads.filter (Pc.asks address) = [] ∧ w.1.shared.now = 0 ∧ w.2 = List.replicate 5 0) ∧
      ∀ given, (arriveLogin w.1.shared address given).2 = .done := by
  obtain ⟨w, hreach, hw⟩ : ∃ w, Reach (watched plainJson address) (OneByOne address) (settings, []) w ∧
      (w.2.length = 5 ∧ w.1.threads.filter (Pc.asks address) = [] ∧ w.1.shared.now = 0 ∧ w.2 = List.replicate 5 0) :=
    exists_reach ((List.range 5).flatMap login) (by decide +kernel)
  have hforgotten : Forgotten address settings := ⟨nofun, rfl, rfl⟩
  have hwithin : Within w.1.shared.now w.2 := by
    rw [hw.2.2.1, hw.2.2.2]
    exact ⟨fun _ => Nat.zero_le _, fun _ => by decide +kernel⟩
  exact ⟨w, hreach, hw, (five_failures_lock_out hforgotten hreach hwithin).2 hw.1 hw.2.1⟩

/-- Six requests pass `blocked` before any of them has failed. -/
theorem sixth_comparison :
    (∃ w, Reach (watched plainJson address) (OnlyWrong address) (settings, []) w ∧ w.2 = List.replicate 6 0) ∧
      ∃ w, Reach (watched plainJson address) (OneByOne address) (settings, []) w ∧
        (w.1.shared.now ≤ loginFailTTL ∧ w.2 = List.replicate 5 0 ++ [11 * minute]) :=
  ⟨exists_reach (List.replicate 6 wrongLogin ++ (List.range 6).map fun i => .move i {}) (by decide +kernel),
    exists_reach ((List.range 5).flatMap login ++ .env (.tick (11 * minute)) :: login 5) (by decide +kernel)⟩

end ArangeTun.Panel
