import ArangeTun.Panel.Requests

/-! # Two factors -/

namespace ArangeTun.Panel

open Go Transition List Option

def tries (token : Str) : Event → Bool
  | .tried _ t _ _ _ => t = token
  | _ => false

def creates (token : Str) : Event → Bool
  | .created _ _ (.code t) _ => t = token
  | _ => false

/-- A correct password, then the code of the login that this password started, within its lifetime. -/
def Follows (history : List Event) (token : Str) : Prop :=
  ∃ i j pw code t₀ t₁, t₁ ≤ t₀ + twoFACodeTTL ∧
    [.tried j token code t₁ .ok, .started i token code t₀, .checked i pw pw].Sublist history

def Justified (history : List Event) : Prop :=
  ∀ h₁ h₂ i tok origin, history = h₁ ++ .created i tok origin true :: h₂ →
    ∃ token, origin = .code token ∧ Follows h₂ token

structure TwoFactors (history : List Event) : Prop where
  sessions : Justified history
  attempts : ∀ token, history.countP (tries token) ≤ twoFAMaxAttempts
  once : ∀ token, history.countP (creates token) ≤ 1

def Passed (history : List Event) (i : Nat) (token : Str) : Prop :=
  ∃ given t, .tried i token given t .ok ∈ history

structure Waiting (history : List Event) (asked : List (Str × Str)) (token : Str) (p : PendingLogin) : Prop where
  started : ∃ i pw t₀, p.expires = t₀ + twoFACodeTTL ∧
    [.started i token p.code t₀, .checked i pw pw].Sublist history
  known : token ∈ asked.map Prod.fst
  counted : history.countP (tries token) = p.attempts
  few : p.attempts < twoFAMaxAttempts
  notPassed : ∀ i, ¬ Passed history i token

structure Sound (history : List Event) (asked : List (Str × Str)) (t : TwoFAStore) : Prop extends TwoFactors history where
  pending : ∀ token p, t token = some p → Waiting history asked token p
  unknown : ∀ token, token ∉ asked.map Prod.fst → history.countP (tries token) = 0 ∧ ∀ i, ¬ Passed history i token
  onePasses : ∀ token i j, Passed history i token → Passed history j token → i = j
  noneCreated : ∀ token, (∀ i, ¬ Passed history i token) → history.countP (creates token) = 0

def Local (sh : Shared) (i : Nat) : Pc → Prop
  | .reset _ given | .readTwoFA _ given | .readTelegram _ given | .start given =>
    .checked i given given ∈ sh.trace.history
  | .create _ _ => sh.saved.twoFA = false
  | .createCode _ token =>
    Follows sh.trace.history token ∧ Passed sh.trace.history i token ∧ sh.trace.history.countP (creates token) = 0
  | _ => True

variable {h : List Event} {asked : List (Str × Str)} {t t' : TwoFAStore} {token given : Str} {e : Event} {i : Nat}

/-! ## One more event -/

theorem passed_cons : Passed (e :: h) i token ↔ (∃ given t, e = .tried i token given t .ok) ∨ Passed h i token := by
  unfold Passed
  constructor
  · rintro ⟨given, t, hmem⟩
    rcases mem_cons.mp hmem with rfl | hmem
    · exact .inl ⟨given, t, rfl⟩
    · exact .inr ⟨given, t, hmem⟩
  · rintro (⟨given, t, rfl⟩ | ⟨given, t, hmem⟩)
    · exact ⟨given, t, mem_cons_self⟩
    · exact ⟨given, t, mem_cons_of_mem _ hmem⟩

theorem Passed.mono {h' : List Event} (hp : Passed h i token) (hsub : h ⊆ h') : Passed h' i token := by
  obtain ⟨given, t, hmem⟩ := hp
  exact ⟨given, t, hsub hmem⟩

theorem Follows.mono {h' : List Event} (hf : Follows h token) (hsub : h.Sublist h') : Follows h' token := by
  obtain ⟨i, j, pw, code, t₀, t₁, ht, hs⟩ := hf
  exact ⟨i, j, pw, code, t₀, t₁, ht, hs.trans hsub⟩

theorem Justified.cons (hj : Justified h)
    (he : ∀ i tok origin, e = .created i tok origin true → ∃ token, origin = .code token ∧ Follows h token) :
    Justified (e :: h) := by
  intro h₁ h₂ i tok origin heq
  cases h₁ with
  | nil =>
    obtain ⟨rfl, rfl⟩ := List.cons.inj heq
    exact he i tok origin rfl
  | cons e' h₁ => exact hj h₁ h₂ i tok origin (List.cons.inj heq).2

theorem Waiting.cons {p : PendingLogin} (hw : Waiting h asked token p) (ht : tries token e = false) :
    Waiting (e :: h) asked token p := by
  obtain ⟨⟨i, pw, t₀, hexp, hsub⟩, hknown, hcount, hfew, hnot⟩ := hw
  refine ⟨⟨i, pw, t₀, hexp, hsub.cons e⟩, hknown, ?_, hfew, fun j hp => ?_⟩
  · rw [countP_cons, ht, hcount]
    simp
  · rcases passed_cons.mp hp with ⟨g, at_, rfl⟩ | hp
    · simp [tries] at ht
    · exact hnot j hp

theorem Sound.cons (hs : Sound h asked t) (ht : ∀ token, tries token e = false) (hc : ∀ token, creates token e = false)
    (he : ∀ i tok origin, e = .created i tok origin true → ∃ token, origin = .code token ∧ Follows h token) :
    Sound (e :: h) asked t := by
  have hpassed : ∀ i token, Passed (e :: h) i token → Passed h i token := by
    intro i token hp
    rcases passed_cons.mp hp with ⟨g, at_, rfl⟩ | hp
    · simp [tries] at ht
    · exact hp
  constructor
  · constructor
    · exact hs.sessions.cons he
    · intro token
      rw [countP_cons, ht]
      simpa using hs.attempts token
    · intro token
      rw [countP_cons, hc]
      simpa using hs.once token
  · exact fun token p hp => (hs.pending token p hp).cons (ht token)
  · intro token hknown
    obtain ⟨hcount, hnot⟩ := hs.unknown token hknown
    refine ⟨?_, fun i hp => hnot i (hpassed i token hp)⟩
    rw [countP_cons, ht, hcount]
    simp
  · exact fun token i j hi hj => hs.onePasses token i j (hpassed i token hi) (hpassed j token hj)
  · intro token hnot
    rw [countP_cons, hc, hs.noneCreated token fun i hp => hnot i (passed_cons.mpr (.inr hp))]
    simp

theorem Sound.fewer (hs : Sound h asked t) (hsub : ∀ k p, t' k = some p → t k = some p) : Sound h asked t' :=
  { hs with pending := fun token p hp => hs.pending token p (hsub token p hp) }

theorem Sound.checked {stored : Str} (hs : Sound h asked t) : Sound (.checked i given stored :: h) asked t :=
  hs.cons (fun _ => rfl) (fun _ => rfl) (fun _ _ _ h => nomatch h)

theorem Sound.started {code : Str} {now : Nat} (hs : Sound h asked t) (hfresh : token ∉ asked.map Prod.fst)
    (hc : .checked i given given ∈ h) :
    Sound (.started i token code now :: h) ((token, given) :: asked) (t.start now token code) := by
  have hs' : Sound (.started i token code now :: h) asked t :=
    hs.cons (fun _ => rfl) (fun _ => rfl) (fun _ _ _ h => nomatch h)
  obtain ⟨hcount, hnot⟩ := hs'.unknown token hfresh
  refine { hs' with pending := fun k p hp => ?_, unknown := fun k hk => ?_ }
  · obtain ⟨rfl, rfl⟩ | hp := TwoFAStore.start_cases hp
    · refine ⟨⟨i, given, now, rfl, ?_⟩, mem_cons_self, hcount, Nat.zero_lt_succ _, hnot⟩
      exact (singleton_sublist.mpr hc).cons_cons _
    · have hw := hs'.pending k p hp
      exact { hw with known := mem_cons_of_mem _ hw.known }
  · exact hs'.unknown k fun hmem => hk (mem_cons_of_mem _ hmem)

theorem Sound.tried {now : Nat} {v : Verdict} {p : PendingLogin} (hs : Sound h asked t) (hp : t token = some p)
    (hv : t.verify now token given = (t', v)) : Sound (.tried i token given now v :: h) asked t' := by
  have hw := hs.pending token p hp
  have hcount : (Event.tried i token given now v :: h).countP (tries token) = p.attempts + 1 := by
    rw [countP_cons_of_pos (by simp [tries]), hw.counted]
  have hother : ∀ k, k ≠ token → tries k (.tried i token given now v) = false := by
    intro k hk
    simp [tries, hk.symm]
  have hpassed : ∀ j k, Passed (.tried i token given now v :: h) j k ↔ (j = i ∧ k = token ∧ v = .ok) ∨ Passed h j k := by
    intro j k
    rw [passed_cons]
    refine or_congr_left ⟨?_, ?_⟩
    · rintro ⟨g, at_, heq⟩
      cases heq
      exact ⟨rfl, rfl, rfl⟩
    · rintro ⟨rfl, rfl, rfl⟩
      exact ⟨given, now, rfl⟩
  constructor
  · constructor
    · exact hs.sessions.cons fun _ _ _ heq => nomatch heq
    · intro k
      by_cases hk : k = token
      · rw [hk, hcount]
        exact hw.few
      · rw [countP_cons_of_neg (by simp [hother k hk])]
        exact hs.attempts k
    · intro k
      rw [countP_cons_of_neg (by simp [creates])]
      exact hs.once k
  · intro k q hq
    rcases TwoFAStore.verify_cases hp hv with ⟨-, rfl, -⟩ | ⟨rfl, hmore, rfl⟩
    · obtain ⟨hk, hq⟩ := Map.delete_eq_some.mp hq
      exact (hs.pending k q hq).cons (hother k hk)
    · obtain ⟨rfl, rfl⟩ | ⟨hk, hq⟩ := Map.set_eq_some.mp hq
      · obtain ⟨⟨j, pw, t₀, hexp, hsub⟩, hknown, -, -, hnot⟩ := hw
        refine ⟨⟨j, pw, t₀, hexp, hsub.cons _⟩, hknown, hcount, hmore, fun j hj => ?_⟩
        rcases (hpassed _ _).mp hj with ⟨-, -, h⟩ | hj
        · exact nomatch h
        · exact hnot j hj
      · exact (hs.pending k q hq).cons (hother k hk)
  · intro k hk
    have hne : k ≠ token := fun heq => hk (heq ▸ hw.known)
    obtain ⟨hzero, hnot⟩ := hs.unknown k hk
    refine ⟨?_, fun j hj => ?_⟩
    · rw [countP_cons_of_neg (by simp [hother k hne]), hzero]
    · rcases (hpassed _ _).mp hj with ⟨-, h, -⟩ | hj
      · exact hne h
      · exact hnot j hj
  · intro k j j' hj hj'
    -- the login has not been passed before, so a pass of its token is this one
    rcases (hpassed _ _).mp hj with ⟨hji, hk, -⟩ | hj <;> rcases (hpassed _ _).mp hj' with ⟨hji', hk', -⟩ | hj'
    · rw [hji, hji']
    · exact absurd (hk ▸ hj') (hw.notPassed _)
    · exact absurd (hk' ▸ hj) (hw.notPassed _)
    · exact hs.onePasses k j j' hj hj'
  · intro k hnot
    rw [countP_cons_of_neg (by simp [creates])]
    exact hs.noneCreated k fun j hj => hnot j ((hpassed _ _).mpr (.inr hj))

theorem Sound.follows {now : Nat} {p : PendingLogin} (hs : Sound h asked t) (hp : t token = some p)
    (hv : t.verify now token given = (t', .ok)) : Follows (.tried i token given now .ok :: h) token := by
  obtain ⟨⟨j, pw, t₀, hexp, hsub⟩, -⟩ := hs.pending token p hp
  rcases TwoFAStore.verify_cases hp hv with ⟨-, -, hok⟩ | ⟨h, -⟩
  · obtain ⟨hnow, rfl⟩ := hok rfl
    exact ⟨j, i, pw, p.code, t₀, now, hexp ▸ hnow, hsub.cons_cons _⟩
  · exact nomatch h

theorem Sound.createdCode {tok : Str} {on : Bool} (hs : Sound h asked t) (hf : Follows h token) (hp : Passed h i token)
    (hzero : h.countP (creates token) = 0) : Sound (.created i tok (.code token) on :: h) asked t := by
  have hpassed : ∀ j k, Passed (.created i tok (.code token) on :: h) j k ↔ Passed h j k := by
    intro j k
    rw [passed_cons]
    exact or_iff_right fun ⟨_, _, heq⟩ => nomatch heq
  have hcreates : ∀ k, k ≠ token → (Event.created i tok (.code token) on :: h).countP (creates k) = h.countP (creates k) :=
    fun k hk => countP_cons_of_neg (by simp [creates, hk.symm])
  constructor
  · constructor
    · refine hs.sessions.cons fun _ _ _ heq => ?_
      cases heq
      exact ⟨token, rfl, hf⟩
    · intro k
      rw [countP_cons_of_neg (by simp [tries])]
      exact hs.attempts k
    · intro k
      by_cases hk : k = token
      · rw [hk, countP_cons_of_pos (by simp [creates]), hzero]
      · rw [hcreates k hk]
        exact hs.once k
  · exact fun k p hp => (hs.pending k p hp).cons rfl
  · intro k hk
    obtain ⟨hz, hnot⟩ := hs.unknown k hk
    rw [countP_cons_of_neg (by simp [tries])]
    exact ⟨hz, fun j hj => hnot j ((hpassed _ _).mp hj)⟩
  · exact fun k j j' hj hj' => hs.onePasses k j j' ((hpassed _ _).mp hj) ((hpassed _ _).mp hj')
  · intro k hnot
    have hk : k ≠ token := fun heq => hnot i ((hpassed _ _).mpr (heq ▸ hp))
    rw [hcreates k hk]
    exact hs.noneCreated k fun j hj => hnot j ((hpassed _ _).mpr hj)

theorem Sound.createdPassword {tok : Str} (hs : Sound h asked t) : Sound (.created i tok .password false :: h) asked t :=
  hs.cons (fun _ => rfl) (fun _ => rfl) (fun _ _ _ h => nomatch h)

theorem Local.mono {sh sh' : Shared} {q : Pc} (hq : Local sh i q)
    (hsub : sh.trace.history.Sublist sh'.trace.history)
    (htwo : ∀ ip given, q = .create ip given → sh.saved.twoFA = false → sh'.saved.twoFA = false)
    (hcreates : ∀ ip token, q = .createCode ip token →
      sh'.trace.history.countP (creates token) = sh.trace.history.countP (creates token)) : Local sh' i q := by
  cases q with
  | reset | readTwoFA | readTelegram | start => exact hsub.subset hq
  | create ip given => exact htwo ip given rfl hq
  | createCode ip token =>
    obtain ⟨hf, hp, hzero⟩ := hq
    exact ⟨hf.mono hsub, hp.mono hsub.subset, (hcreates ip token rfl).trans hzero⟩
  | _ => trivial

theorem Local.frame {sh sh' : Shared} {q : Pc} (hq : Local sh i q) (hsaved : sh'.saved = sh.saved)
    (hhist : sh'.trace.history = sh.trace.history ∨
      ∃ e, sh'.trace.history = e :: sh.trace.history ∧ ∀ token, creates token e = false) : Local sh' i q := by
  refine hq.mono ?_ (fun _ _ _ h => hsaved ▸ h) fun _ token _ => ?_
  · rcases hhist with heq | ⟨e, heq, -⟩
    · rw [heq]
    · rw [heq]
      exact sublist_cons_self ..
  · rcases hhist with heq | ⟨e, heq, he⟩
    · rw [heq]
    · rw [heq, countP_cons_of_neg (by simp [he])]

/-! ## Runs -/

namespace Pc

def isCreate : Pc → Bool
  | create .. => true
  | _ => false

def readsTelegram : Pc → Bool
  | readTelegram .. => true
  | _ => false

/-- The request has a configuration to save in which `two_fa` is on, and it is off in the file. -/
def switchesOn (saved : Config) : Pc → Bool
  | save e c => !saved.twoFA && (e.apply c).twoFA
  | _ => false

end Pc

/-- The bot is ready when a login looks at its configuration, and `two_fa` is not switched on while a login that goes
without a code has yet to create its session. -/
def BotReady (s : State) : Action → Prop
  | .move i _ => ∀ p ∈ s.threads[i]?, (p.readsTelegram = true → s.shared.telegramReady = true) ∧
      (p.switchesOn s.shared.saved = true → ∀ q ∈ s.threads, q.isCreate = false)
  | _ => True

instance (s : State) : (a : Action) → Decidable (BotReady s a)
  | .enter _ | .env _ => isTrue trivial
  | .move i _ => inferInstanceAs (Decidable (∀ p ∈ s.threads[i]?, _))

section

variable {json : Json} {s : State}

theorem twoFactors_enter {sh sh' : Shared} {p : Pc} (hs : Sound sh.trace.history sh.trace.asked sh.server.twoFA)
    (he : Entered sh i sh' p) :
    Sound sh'.trace.history sh'.trace.asked sh'.server.twoFA ∧ Local sh' i p ∧
      ∀ j q, Local sh j q → Local sh' j q := by
  cases he with
  | quiet hf hp =>
    refine ⟨hs, ?_, fun _ _ hq => hq.frame rfl (.inl rfl)⟩
    cases p <;> trivial
  | unknown hnone =>
    exact ⟨hs.fewer fun k p hk => (Map.delete_eq_some.mp hk).2, trivial, fun _ _ hq => hq.frame rfl (.inl rfl)⟩
  | @passed ip token given p t hp hv =>
    refine ⟨hs.tried hp hv, ⟨hs.follows hp hv, ⟨_, _, mem_cons_self⟩, ?_⟩,
      fun _ _ hq => hq.frame rfl (.inr ⟨_, rfl, fun _ => rfl⟩)⟩
    exact (countP_cons_of_neg (by simp [creates])).trans
      (hs.noneCreated token (hs.pending token p hp).notPassed)
  | refused hp hv hne =>
    exact ⟨hs.tried hp hv, trivial, fun _ _ hq => hq.frame rfl (.inr ⟨_, rfl, fun _ => rfl⟩)⟩

theorem twoFactors_move {p p' : Pc} {x : Input} {sh' : Shared}
    (hs : Sound s.shared.trace.history s.shared.trace.asked s.shared.server.twoFA) (hc : BotReady s (.move i x))
    (hp : s.threads[i]? = some p) (hl : Local s.shared i p) (hm : move json s.shared i p x = some (sh', p')) :
    Sound sh'.trace.history sh'.trace.asked sh'.server.twoFA ∧ Local sh' i p' ∧
      ∀ j q, j ≠ i → s.threads[j]? = some q → Local s.shared j q → Local sh' j q := by
  obtain ⟨hready, hoff⟩ := hc p hp
  cases p with
  | compare ip given =>
    cases hm
    refine ⟨hs.checked, ?_, fun _ _ _ _ hq => hq.frame rfl (.inr ⟨_, rfl, fun _ => rfl⟩)⟩
    split
    next heq =>
      rw [← heq]
      exact mem_cons_self
    next => trivial
  | fail ip =>
    cases hm
    exact ⟨hs, trivial, fun _ _ _ _ hq => hq.frame rfl (.inl rfl)⟩
  | reset ip given =>
    cases hm
    exact ⟨hs, hl, fun _ _ _ _ hq => hq.frame rfl (.inl rfl)⟩
  | readTwoFA ip given =>
    cases hm
    refine ⟨hs, ?_, fun _ _ _ _ hq => hq⟩
    split
    next => exact hl
    next hoff => exact Bool.eq_false_iff.mpr hoff
  | readTelegram ip given =>
    simp only [move, hready rfl, if_true] at hm
    cases hm
    exact ⟨hs, hl, fun _ _ _ _ hq => hq⟩
  | start given =>
    simp only [move, ite_none_left_eq_some] at hm
    obtain ⟨hfresh, hm⟩ := hm
    cases hm
    exact ⟨hs.started hfresh hl, trivial, fun _ _ _ _ hq => hq.frame rfl (.inr ⟨_, rfl, fun _ => rfl⟩)⟩
  | send token =>
    cases hm
    refine ⟨hs, ?_, fun _ _ _ _ hq => hq⟩
    split <;> trivial
  | cancel token =>
    cases hm
    exact ⟨hs.fewer fun k p hk => (Map.delete_eq_some.mp hk).2, trivial,
      fun _ _ _ _ hq => hq.frame rfl (.inl rfl)⟩
  | create ip given =>
    cases hm
    have hoff : s.shared.saved.twoFA = false := hl
    refine ⟨?_, trivial, fun _ _ _ _ hq => hq.frame rfl (.inr ⟨_, rfl, fun _ => rfl⟩)⟩
    show Sound (.created i x.token .password s.shared.saved.twoFA :: _) _ _
    rw [hoff]
    exact hs.createdPassword
  | createCode ip token =>
    cases hm
    obtain ⟨hf, hpass, hzero⟩ := hl
    refine ⟨hs.createdCode hf hpass hzero, trivial, fun j q hne hq hlq => ?_⟩
    refine hlq.mono (sublist_cons_self ..) (fun _ _ _ h => h) fun ip' token' heq => ?_
    subst heq
    -- only one request has given the code of a token
    have hne' : token ≠ token' := by
      rintro rfl
      exact hne (hs.onePasses token j i hlq.2.1 hpass)
    exact countP_cons_of_neg (by simp [creates, hne'])
  | load e =>
    cases hm
    exact ⟨hs, trivial, fun _ _ _ _ hq => hq⟩
  | save e c =>
    simp only [move] at hm
    split at hm
    next hok =>
      cases hm
      refine ⟨?_, ?_, fun j q hne hq hlq => hlq.mono ?_ (fun ip given heq htwo => ?_) fun _ _ _ => ?_⟩
      · rw [Shared.save_history, Shared.save_asked]
        exact hs
      · cases e <;> trivial
      · rw [Shared.save_history]
      · -- were `two_fa` switched on here, no request could be where this one is
        by_contra hon
        have hswitch : (Pc.save e c).switchesOn s.shared.saved = true := by
          rw [Pc.switchesOn, htwo]
          exact Bool.not_eq_false _ ▸ hon
        have := hoff hswitch q (mem_of_getElem? hq)
        rw [heq] at this
        cases this
      · rw [Shared.save_history]
    next =>
      cases hm
      exact ⟨hs, trivial, fun _ _ _ _ hq => hq⟩
  | clear pw =>
    cases hm
    exact ⟨hs, trivial, fun _ _ _ _ hq => hq.frame rfl (.inl rfl)⟩
  | answer pw =>
    cases hm
    rw [Shared.answer_history, Shared.answer_asked]
    exact ⟨hs, trivial, fun _ _ _ _ hq => hq.frame rfl (.inl (Shared.answer_history ..))⟩
  | done => cases hm

theorem sound_initial : Sound [] [] .empty where
  sessions := fun _ _ _ _ _ h => by simp at h
  attempts := fun _ => Nat.zero_le _
  once := fun _ => Nat.zero_le _
  pending := fun _ _ h => nomatch h
  unknown := fun _ _ => ⟨rfl, fun _ ⟨_, _, h⟩ => nomatch h⟩
  onePasses := fun _ _ _ ⟨_, _, h⟩ => nomatch h
  noneCreated := fun _ _ => rfl

/-- In every state the panel reaches, for all that requests interleave. -/
theorem login_two_factors {now : Nat} {c : Config} {ready : Bool}
    (h : Reach (panel json).step BotReady (State.initial json now c ready) s) : TwoFactors s.shared.trace.history := by
  have hinv : Program.Holds (fun sh : Shared => Sound sh.trace.history sh.trace.asked sh.server.twoFA) Local s := by
    refine Program.invariant h ⟨sound_initial, nofun⟩ ?_ ?_ ?_
    · intro s r sh p hs _ hp
      obtain ⟨hsound, hl, hothers⟩ := twoFactors_enter hs.shared (entered (Option.some.inj hp))
      exact ⟨hsound, hl, fun j q _ => hothers j q⟩
    · intro s i p x sh p' hs hc hp hl hm
      exact twoFactors_move hs.shared hc hp hl hm
    · intro s e sh hs _ hsh
      cases hsh
      cases e with
      | tick | telegram => exact ⟨hs.shared, fun _ _ _ hq => hq.frame rfl (.inl rfl)⟩
  exact hinv.shared.toTwoFactors

end

def guardedConfig : Config := { password := lit "12345678", twoFA := true }

/-- The login is asked for a code, and its second attempt is right. -/
theorem code_login_two_factors :
    ∃ s, Reach (panel plainJson).step BotReady (State.initial plainJson 0 guardedConfig true) s ∧
      (s.shared.server.sessions (lit "s")).isSome = true ∧ TwoFactors s.shared.trace.history := by
  obtain ⟨s, hs, hsession⟩ := @exists_reach State Action (panel plainJson).step BotReady
    (State.initial plainJson 0 guardedConfig true)
    (fun s => (s.shared.server.sessions (lit "s")).isSome = true) _ _
    (loginRun 0 ++ [.move 0 {}, .move 0 { token := lit "t", code := lit "271828" }, .move 0 {},
      .enter (.login2FA (lit "203.0.113.9") (lit "t") (lit "271829")),
      .enter (.login2FA (lit "203.0.113.9") (lit "t") (lit "271828 ")), .move 2 { token := lit "s" }])
    (by decide +kernel)
  exact ⟨s, hs, hsession, login_two_factors hs⟩

/-- The bot is not configured, and the password alone gives a session with `two_fa` on. -/
theorem password_alone_suffices :
    ∃ s, Reach (panel plainJson).step Any (State.initial plainJson 0 guardedConfig false) s ∧
      s.shared.saved.twoFA = true ∧ (s.shared.server.sessions (lit "s")).isSome = true ∧
      ¬ TwoFactors s.shared.trace.history := by
  obtain ⟨s, hs, htwo, hsession, hhist⟩ := @exists_reach State Action (panel plainJson).step Any
    (State.initial plainJson 0 guardedConfig false)
    (fun s => s.shared.saved.twoFA = true ∧ (s.shared.server.sessions (lit "s")).isSome = true ∧
      s.shared.trace.history =
        [.created 0 (lit "s") .password true, .checked 0 (lit "12345678") (lit "12345678")]) _ _
    (loginRun 0 ++ [.move 0 {}, .move 0 { token := lit "s" }]) (by decide +kernel)
  refine ⟨s, hs, htwo, hsession, fun h => ?_⟩
  obtain ⟨token, horigin, -⟩ := h.sessions [] _ 0 (lit "s") .password hhist
  cases horigin

end ArangeTun.Panel
