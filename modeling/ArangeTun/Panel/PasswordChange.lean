import ArangeTun.Panel.Requests

/-! # A change of the password -/

namespace ArangeTun.Panel

open Go Transition

namespace Pc

def gave (asked : List (Str × Str)) : Pc → Option Str
  | reset _ given | readTwoFA _ given | readTelegram _ given | start given | create _ given => some given
  | createCode _ token => asked.lookup token
  | _ => none

def newPassword : Pc → Option Str
  | save (.password pw) _ => some pw
  | _ => none

/-- The request holds a configuration it has loaded, for another change than that of the password. -/
def holdsConfig : Pc → Bool
  | save e _ => !e.isPassword
  | _ => false

def isClear : Pc → Bool
  | clear _ => true
  | _ => false

end Pc

def Shared.waits (sh : Shared) (token : Str) : Bool := (sh.server.twoFA token).any fun p => decide (sh.now ≤ p.expires)

/-- A saved password is one that encoding/json keeps, and no other request or login is under way with another one. -/
def Undisturbed (json : Json) (s : State) : Action → Prop
  | .move i _ => ∀ p ∈ s.threads[i]?,
      (∀ pw ∈ p.newPassword, json.text pw = pw ∧ ∀ q ∈ s.threads, q.holdsConfig = false) ∧
      (p.isClear = true →
        (∀ q ∈ s.threads, ∀ pw ∈ q.gave s.shared.trace.asked, pw = s.shared.saved.password) ∧
        ∀ x ∈ s.shared.trace.asked, s.shared.waits x.1 = true → x.2 = s.shared.saved.password)
  | _ => True

instance (json : Json) (s : State) : (a : Action) → Decidable (Undisturbed json s a)
  | .enter _ | .env _ => isTrue trivial
  | .move i _ => inferInstanceAs (Decidable (∀ p ∈ s.threads[i]?, _))

structure Settled (json : Json) (sh : Shared) : Prop where
  stable : json.text sh.saved.password = sh.saved.password
  known : ∀ token p, sh.server.twoFA token = some p → ∃ pw, sh.trace.asked.lookup token = some pw
  sessions : sh.trace.cleared = true → ∀ tok info, sh.server.sessions tok = some info →
    sh.trace.used tok = some sh.saved.password
  pending : sh.trace.cleared = true → ∀ token p, sh.server.twoFA token = some p → sh.now ≤ p.expires →
    sh.trace.asked.lookup token = some sh.saved.password
  final : ∀ pw, sh.trace.final = some pw → sh.trace.cleared = true ∧ sh.saved.password = pw

/-- The invariant of a request, by the saved password and the parts of the trace it is about. -/
def Keeps (saved : Str) (asked : List (Str × Str)) (latest : Option Nat) (cleared : Bool) (i : Nat) : Pc → Prop
  | .reset _ given | .readTwoFA _ given | .readTelegram _ given | .start given | .create _ given =>
    cleared = true → given = saved
  | .createCode _ token => (∃ pw, asked.lookup token = some pw) ∧ (cleared = true → asked.lookup token = some saved)
  | .save e c => e.isPassword = false → c.password = saved
  | .clear pw => latest = some i → saved = pw
  | .answer pw => latest = some i → cleared = true ∧ saved = pw
  | _ => True

abbrev Shared.Keeps (sh : Shared) : Nat → Pc → Prop :=
  Panel.Keeps sh.saved.password sh.trace.asked sh.trace.latest sh.trace.cleared

variable {json : Json} {sh sh' : Shared} {s : State} {i : Nat} {token given : Str} {asked : List (Str × Str)}

/-! ## The stores -/

theorem lookup_mem {pw : Str} (h : asked.lookup token = some pw) : (token, pw) ∈ asked := by
  obtain ⟨l, l', rfl, -⟩ := List.lookup_eq_some_iff.mp h
  simp

theorem lookup_cons_of_fresh {k pw : Str} (hfresh : token ∉ asked.map Prod.fst) (h : asked.lookup k = some pw) :
    ((token, given) :: asked).lookup k = some pw := by
  have hne : k ≠ token := by
    rintro rfl
    exact hfresh (List.mem_map.mpr ⟨_, lookup_mem h, rfl⟩)
  rw [List.lookup_cons, beq_false_of_ne hne]
  exact h

theorem Settled.fewer (hs : Settled json sh) (hsaved : sh'.saved = sh.saved) (hasked : sh'.trace.asked = sh.trace.asked)
    (hused : sh'.trace.used = sh.trace.used) (hcleared : sh'.trace.cleared = sh.trace.cleared)
    (hfinal : sh'.trace.final = sh.trace.final) (hnow : sh.now ≤ sh'.now)
    (hf : ∀ tok info, sh'.server.sessions tok = some info → sh.server.sessions tok = some info)
    (ht : ∀ k p, sh'.server.twoFA k = some p → ∃ q, sh.server.twoFA k = some q ∧ q.expires = p.expires) :
    Settled json sh' := by
  constructor
  · rw [hsaved]
    exact hs.stable
  · intro k p hp
    obtain ⟨q, hq, -⟩ := ht k p hp
    rw [hasked]
    exact hs.known k q hq
  · intro hc tok info hi
    rw [hused, hsaved]
    exact hs.sessions (hcleared ▸ hc) tok info (hf tok info hi)
  · intro hc k p hp hle
    obtain ⟨q, hq, hexp⟩ := ht k p hp
    rw [hasked, hsaved]
    exact hs.pending (hcleared ▸ hc) k q hq (by omega)
  · rw [hfinal, hcleared, hsaved]
    exact hs.final

theorem verify_expires {t t' : TwoFAStore} {now : Nat} {v : Verdict} {q : PendingLogin} (hq : t token = some q)
    (hv : t.verify now token given = (t', v)) (k : Str) (p : PendingLogin) (hp : t' k = some p) :
    ∃ q, t k = some q ∧ q.expires = p.expires := by
  rcases TwoFAStore.verify_cases hq hv with ⟨-, rfl, -⟩ | ⟨-, -, rfl⟩
  · exact ⟨p, (Map.delete_eq_some.mp hp).2, rfl⟩
  · obtain ⟨rfl, rfl⟩ | ⟨-, hp⟩ := Map.set_eq_some.mp hp
    · exact ⟨q, hq, rfl⟩
    · exact ⟨p, hp, rfl⟩

theorem settled_enter {p : Pc} (hs : Settled json sh) (he : Entered sh i sh' p) :
    Settled json sh' ∧ sh'.Keeps i p ∧ ∀ j q, sh.Keeps j q → sh'.Keeps j q := by
  cases he with
  | quiet hf hp =>
    refine ⟨hs.fewer rfl rfl rfl rfl rfl (Nat.le_refl _) hf fun _ p hp => ⟨p, hp, rfl⟩, ?_, fun _ _ hq => hq⟩
    cases p <;> trivial
  | unknown hnone =>
    exact ⟨hs.fewer rfl rfl rfl rfl rfl (Nat.le_refl _) (fun _ _ h => h)
      fun _ p hp => ⟨p, (Map.delete_eq_some.mp hp).2, rfl⟩, trivial, fun _ _ hq => hq⟩
  | @passed ip token given q t hq hv =>
    refine ⟨hs.fewer rfl rfl rfl rfl rfl (Nat.le_refl _) (fun _ _ h => h) (verify_expires hq hv),
      ⟨hs.known token q hq, fun hc => hs.pending hc token q hq ?_⟩, fun _ _ hq => hq⟩
    rcases TwoFAStore.verify_cases hq hv with ⟨-, -, hok⟩ | ⟨h, -⟩
    · exact (hok rfl).1
    · exact nomatch h
  | refused hq hv _ =>
    exact ⟨hs.fewer rfl rfl rfl rfl rfl (Nat.le_refl _) (fun _ _ h => h) (verify_expires hq hv), trivial,
      fun _ _ hq => hq⟩

theorem Settled.create {tok ip : Str} {origin : Origin} {used : Option Str} (hs : Settled json sh)
    (hu : sh.trace.cleared = true → used = some sh.saved.password) :
    Settled json (sh.create i tok ip origin used) := by
  refine { hs with sessions := fun hc k info hi => ?_ }
  have hi : sh.server.sessions.create sh.now tok ip k = some info := hi
  obtain rfl | ⟨hne, hi⟩ := Sessions.create_cases hi
  · exact (Function.update_self ..).trans (hu hc)
  · exact (Function.update_of_ne hne ..).trans (hs.sessions hc k info hi)

theorem Settled.start {code : Str} (hs : Settled json sh) (hfresh : token ∉ sh.trace.asked.map Prod.fst)
    (hg : sh.trace.cleared = true → given = sh.saved.password) : Settled json (sh.start i token code given) := by
  have hself : ((token, given) :: sh.trace.asked).lookup token = some given := List.lookup_cons_self
  refine { hs with known := fun k p hp => ?_, pending := fun hc k p hp hle => ?_ }
  · have hp : sh.server.twoFA.start sh.now token code k = some p := hp
    obtain ⟨rfl, -⟩ | hp := TwoFAStore.start_cases hp
    · exact ⟨given, hself⟩
    · obtain ⟨pw, hpw⟩ := hs.known k p hp
      exact ⟨pw, lookup_cons_of_fresh hfresh hpw⟩
  · have hp : sh.server.twoFA.start sh.now token code k = some p := hp
    obtain ⟨rfl, -⟩ | hp := TwoFAStore.start_cases hp
    · exact (hg hc) ▸ hself
    · exact lookup_cons_of_fresh hfresh (hs.pending hc k p hp hle)

theorem Keeps.start {q : Pc} {saved : Str} {latest : Option Nat} {cleared : Bool}
    (hq : Keeps saved asked latest cleared i q) (hfresh : token ∉ asked.map Prod.fst) :
    Keeps saved ((token, given) :: asked) latest cleared i q := by
  cases q with
  | createCode ip k =>
    obtain ⟨⟨pw, hpw⟩, hc⟩ := hq
    exact ⟨⟨pw, lookup_cons_of_fresh hfresh hpw⟩, fun h => lookup_cons_of_fresh hfresh (hc h)⟩
  | _ => exact hq

/-! ## Saving -/

theorem apply_password_of_not {e : Edit} {c : Config} (h : e.isPassword = false) : (e.apply c).password = c.password := by
  cases e with
  | password => cases h
  | panelCert mode => cases mode <;> rfl
  | _ => rfl

theorem save_other {e : Edit} {c : Config} (hs : Settled json sh) (he : e.isPassword = false)
    (hc : c.password = sh.saved.password) :
    (sh.save json i e c).saved.password = sh.saved.password ∧ (sh.save json i e c).trace = sh.trace := by
  constructor
  · show json.text (e.apply c).password = _
    rw [apply_password_of_not he, hc, hs.stable]
  · simp [Shared.save, he]

theorem Settled.saveOther {e : Edit} {c : Config} (hs : Settled json sh) (he : e.isPassword = false)
    (hc : c.password = sh.saved.password) : Settled json (sh.save json i e c) := by
  obtain ⟨hpw, htrace⟩ := save_other (i := i) hs he hc
  constructor
  · rw [hpw]
    exact hs.stable
  · rw [htrace]
    exact hs.known
  · rw [htrace, hpw]
    exact hs.sessions
  · rw [htrace, hpw]
    exact hs.pending
  · rw [htrace, hpw]
    exact hs.final

theorem Settled.savePassword {pw : Str} {c : Config} (hs : Settled json sh) :
    Settled json (sh.save json i (.password pw) c) where
  stable := json.text_text pw
  known := hs.known
  sessions := fun h => nomatch h
  pending := fun h => nomatch h
  final := fun _ h => nomatch h

theorem Keeps.savePassword {q : Pc} {saved : Str} {latest : Option Nat} {cleared : Bool} {j : Nat} {saved' : Str}
    (hq : Keeps saved asked latest cleared j q) (hne : j ≠ i) (hholds : q.holdsConfig = false) :
    Keeps saved' asked (some i) false j q := by
  cases q with
  | reset | readTwoFA | readTelegram | start | create => exact fun h => nomatch h
  | createCode => exact ⟨hq.1, fun h => nomatch h⟩
  | save e c =>
    intro he
    simp [Pc.holdsConfig, he] at hholds
  | clear | answer => exact fun h => absurd (Option.some.inj h).symm hne
  | _ => trivial

theorem settled_save {e : Edit} {c : Config} (hs : Settled json s.shared) (hp : s.threads[i]? = some (.save e c))
    (hl : s.shared.Keeps i (.save e c))
    (hnew : ∀ pw ∈ (Pc.save e c).newPassword, json.text pw = pw ∧ ∀ q ∈ s.threads, q.holdsConfig = false) :
    Settled json (s.shared.save json i e c) ∧
      (s.shared.save json i e c).Keeps i (.afterSave e) ∧
      ∀ j q, j ≠ i → s.threads[j]? = some q → s.shared.Keeps j q → (s.shared.save json i e c).Keeps j q := by
  cases he : e.isPassword with
  | false =>
    obtain ⟨hpw, htrace⟩ := save_other (i := i) hs he (hl he)
    refine ⟨hs.saveOther he (hl he), ?_, fun j q _ _ hq => ?_⟩
    · cases e <;> trivial
    · show Keeps _ _ _ _ j q
      rw [hpw, htrace]
      exact hq
  | true =>
    cases e with
    | password pw =>
      obtain ⟨htext, hholds⟩ := hnew pw rfl
      exact ⟨hs.savePassword, fun _ => htext,
        fun j q hne hq hkeeps => hkeeps.savePassword hne (hholds q (List.mem_of_getElem? hq))⟩
    | _ => cases he

theorem settled_clear {pw : Str} (hs : Settled json s.shared) (hl : s.shared.Keeps i (.clear pw))
    (hall : ∀ j q, s.threads[j]? = some q → s.shared.Keeps j q)
    (hgave : ∀ q ∈ s.threads, ∀ pw ∈ q.gave s.shared.trace.asked, pw = s.shared.saved.password)
    (hwaits : ∀ x ∈ s.shared.trace.asked, s.shared.waits x.1 = true → x.2 = s.shared.saved.password) :
    Settled json (s.shared.clear i) ∧ (s.shared.clear i).Keeps i (.answer pw) ∧
      ∀ j q, s.threads[j]? = some q → (s.shared.clear i).Keeps j q := by
  have hlatest : s.shared.trace.latest = some i → (s.shared.clear i).trace.cleared = true := by
    intro h
    simp [Shared.clear, Shared.setSessions, h]
  have hmore : s.shared.trace.cleared = true → (s.shared.clear i).trace.cleared = true := by
    intro h
    simp [Shared.clear, Shared.setSessions, h]
  refine ⟨{ hs with sessions := nofun, pending := fun _ k p hp hle => ?_, final := ?_ }, ?_, ?_⟩
  · obtain ⟨pw, hpw⟩ := hs.known k p hp
    have hp : s.shared.server.twoFA k = some p := hp
    have hwait : s.shared.waits k = true := by
      rw [Shared.waits, hp]
      exact decide_eq_true hle
    exact (hwaits (k, pw) (lookup_mem hpw) hwait) ▸ hpw
  · intro pw hf
    obtain ⟨hc, hsaved⟩ := hs.final pw hf
    exact ⟨hmore hc, hsaved⟩
  · exact fun h => ⟨hlatest h, hl h⟩
  · intro j q hq
    have hkeeps := hall j q hq
    have hg := hgave q (List.mem_of_getElem? hq)
    cases q with
    | reset | readTwoFA | readTelegram | start | create => exact fun _ => hg _ rfl
    | createCode ip token =>
      obtain ⟨⟨pw, hpw⟩, -⟩ := hkeeps
      exact ⟨⟨pw, hpw⟩, fun _ => (hg pw hpw) ▸ hpw⟩
    | answer pw => exact fun h => ⟨hmore (hkeeps h).1, (hkeeps h).2⟩
    | _ => exact hkeeps

theorem settled_answer {pw : Str} (hs : Settled json sh) (hl : sh.Keeps i (.answer pw)) :
    Settled json (sh.answer i pw) ∧ ∀ j q, sh.Keeps j q → (sh.answer i pw).Keeps j q := by
  unfold Shared.answer
  split
  next hlatest =>
    refine ⟨{ hs with final := fun pw' hf => ?_ }, fun _ _ hq => hq⟩
    cases hf
    exact hl hlatest
  next => exact ⟨hs, fun _ _ hq => hq⟩

/-! ## Runs -/

theorem settled_move {p p' : Pc} {x : Input} (hs : Settled json s.shared) (hc : Undisturbed json s (.move i x))
    (hp : s.threads[i]? = some p) (hall : ∀ j q, s.threads[j]? = some q → s.shared.Keeps j q)
    (hm : move json s.shared i p x = some (sh', p')) :
    Settled json sh' ∧ sh'.Keeps i p' ∧
      ∀ j q, j ≠ i → s.threads[j]? = some q → s.shared.Keeps j q → sh'.Keeps j q := by
  obtain ⟨hnew, hclear⟩ := hc p hp
  have hl := hall i p hp
  cases p with
  | compare ip given =>
    cases hm
    refine ⟨{ hs with }, ?_, fun _ _ _ _ hq => hq⟩
    split
    next heq => exact fun _ => heq
    next => trivial
  | fail ip =>
    cases hm
    exact ⟨{ hs with }, trivial, fun _ _ _ _ hq => hq⟩
  | reset ip given =>
    cases hm
    exact ⟨{ hs with }, hl, fun _ _ _ _ hq => hq⟩
  | readTwoFA ip given =>
    cases hm
    refine ⟨hs, ?_, fun _ _ _ _ hq => hq⟩
    split <;> exact hl
  | readTelegram ip given =>
    cases hm
    refine ⟨hs, ?_, fun _ _ _ _ hq => hq⟩
    split <;> exact hl
  | start given =>
    simp only [move, Option.ite_none_left_eq_some] at hm
    obtain ⟨hfresh, hm⟩ := hm
    cases hm
    exact ⟨hs.start hfresh hl, trivial, fun _ _ _ _ hq => hq.start hfresh⟩
  | send token =>
    cases hm
    refine ⟨hs, ?_, fun _ _ _ _ hq => hq⟩
    split <;> trivial
  | cancel token =>
    cases hm
    exact ⟨hs.fewer rfl rfl rfl rfl rfl (Nat.le_refl _) (fun _ _ h => h)
      fun _ p hp => ⟨p, (Map.delete_eq_some.mp hp).2, rfl⟩, trivial, fun _ _ _ _ hq => hq⟩
  | create ip given =>
    cases hm
    exact ⟨hs.create fun hc => congrArg some (hl hc), trivial, fun _ _ _ _ hq => hq⟩
  | createCode ip token =>
    cases hm
    exact ⟨hs.create hl.2, trivial, fun _ _ _ _ hq => hq⟩
  | load e =>
    cases hm
    exact ⟨hs, fun _ => rfl, fun _ _ _ _ hq => hq⟩
  | save e c =>
    simp only [move] at hm
    split at hm
    next =>
      cases hm
      exact settled_save hs hp hl hnew
    next =>
      cases hm
      exact ⟨hs, trivial, fun _ _ _ _ hq => hq⟩
  | clear pw =>
    cases hm
    obtain ⟨hgave, hwaits⟩ := hclear rfl
    obtain ⟨hsettled, hkeeps, hothers⟩ := settled_clear hs hl hall hgave hwaits
    exact ⟨hsettled, hkeeps, fun j q _ hq _ => hothers j q hq⟩
  | answer pw =>
    cases hm
    obtain ⟨hsettled, hothers⟩ := settled_answer hs hl
    exact ⟨hsettled, trivial, fun j q _ _ => hothers j q⟩
  | done => cases hm

theorem settled_initial {now : Nat} {c : Config} {ready : Bool} :
    Settled json (State.initial json now c ready).shared where
  stable := json.text_text c.password
  known := fun _ _ h => nomatch h
  sessions := fun h => nomatch h
  pending := fun h => nomatch h
  final := fun _ h => nomatch h

/-- After the answer, and until the password is changed again, the saved password is the new one, and a valid session is
of a login that gave it. -/
theorem password_change_final {now : Nat} {c : Config} {ready : Bool} {pw : Str}
    (h : Reach (panel json).step (Undisturbed json) (State.initial json now c ready) s)
    (hf : s.shared.trace.final = some pw) :
    s.shared.saved.filled.password = pw ∧
      ∀ tok, (s.shared.server.sessions.valid s.shared.now tok).1 = true → s.shared.trace.used tok = some pw := by
  have hinv : Program.Holds (Settled json) Shared.Keeps s := by
    refine Program.invariant h ⟨settled_initial, nofun⟩ ?_ ?_ ?_
    · intro s r sh p hs _ hp
      obtain ⟨hsettled, hl, hothers⟩ := settled_enter hs.shared (entered (Option.some.inj hp))
      exact ⟨hsettled, hl, fun j q _ => hothers j q⟩
    · intro s i p x sh p' hs hc hp _ hm
      exact settled_move hs.shared hc hp hs.thread hm
    · intro s e sh hs _ hsh
      cases hsh
      cases e with
      | tick d =>
        exact ⟨hs.shared.fewer rfl rfl rfl rfl rfl (Nat.le_add_right ..) (fun _ _ h => h) fun _ p hp => ⟨p, hp, rfl⟩,
          fun _ _ _ hq => hq⟩
      | telegram => exact ⟨{ hs.shared with }, fun _ _ _ hq => hq⟩
  obtain ⟨hcleared, rfl⟩ := hinv.shared.final pw hf
  refine ⟨rfl, fun tok hv => ?_⟩
  unfold Sessions.valid at hv
  split at hv
  next => cases hv
  next info hinfo => exact hinv.shared.sessions hcleared tok info hinfo

def openConfig : Config := { password := lit "12345678" }

def changeRun (i : Nat) : List Action :=
  [.enter (.edit (lit "s") (.password (lit " battery staple "))), .move i {}, .move i {}, .move i {}, .move i {}]

/-- A password is changed, and the next login gives the new one. -/
theorem changed_and_used :
    ∃ s, Reach (panel plainJson).step (Undisturbed plainJson) (State.initial plainJson 0 openConfig false) s ∧
      s.shared.saved.filled.password = lit "battery staple" ∧
      (s.shared.server.sessions.valid s.shared.now (lit "s2")).1 = true ∧
      s.shared.trace.used (lit "s2") = some (lit "battery staple") := by
  obtain ⟨s, hs, hfinal, hvalid⟩ := @exists_reach State Action (panel plainJson).step (Undisturbed plainJson)
    (State.initial plainJson 0 openConfig false)
    (fun s => s.shared.trace.final = some (lit "battery staple") ∧
      (s.shared.server.sessions.valid s.shared.now (lit "s2")).1 = true) _ _
    (loginRun 0 ++ [.move 0 { token := lit "s" }] ++ changeRun 1 ++
      [.enter (.login (lit "203.0.113.9") (lit "battery staple")), .move 2 {}, .move 2 {}, .move 2 {},
        .move 2 { token := lit "s2" }])
    (by decide +kernel)
  obtain ⟨hsaved, hused⟩ := password_change_final hs hfinal
  exact ⟨s, hs, hsaved, hvalid, hused (lit "s2") hvalid⟩

/-- Three ways around a change that was answered: another change puts the old password back, a login that waits for its
code gets its session, and so does one that was compared before. -/
theorem password_change_undone :
    (∃ s, Reach (panel plainJson).step Any (State.initial plainJson 0 openConfig false) s ∧
      s.shared.trace.final = some (lit "battery staple") ∧ s.shared.saved.filled.password = lit "12345678") ∧
    (∃ s, Reach (panel plainJson).step Any (State.initial plainJson 0 { openConfig with twoFA := true } true) s ∧
      s.shared.trace.final = some (lit "battery staple") ∧
      (s.shared.server.sessions.valid s.shared.now (lit "s2")).1 = true ∧
      s.shared.trace.used (lit "s2") = some (lit "12345678")) ∧
    (∃ s, Reach (panel plainJson).step Any (State.initial plainJson 0 openConfig false) s ∧
      s.shared.trace.final = some (lit "battery staple") ∧
      (s.shared.server.sessions.valid s.shared.now (lit "s2")).1 = true ∧
      s.shared.trace.used (lit "s2") = some (lit "12345678")) := by
  refine ⟨?_, ?_, ?_⟩
  · -- handlePanelPort loads before the change and saves after it
    exact exists_reach
      (loginRun 0 ++ [.move 0 { token := lit "s" }, .enter (.edit (lit "s") (.panelPort 8443)), .move 1 {}] ++
        changeRun 2 ++ [.move 1 {}])
      (by decide +kernel)
  · exact exists_reach
      (loginRun 0 ++ [.move 0 {}, .move 0 { token := lit "t", code := lit "271828" },
        .enter (.login2FA (lit "203.0.113.9") (lit "t") (lit "271828")), .move 1 { token := lit "s" }] ++
        loginRun 2 ++ [.move 2 {}, .move 2 { token := lit "t2", code := lit "314159" }] ++
        changeRun 3 ++
        [.enter (.login2FA (lit "203.0.113.9") (lit "t2") (lit "314159")), .move 4 { token := lit "s2" }])
      (by decide +kernel)
  · exact exists_reach
      (loginRun 0 ++ [.move 0 { token := lit "s" }] ++ loginRun 1 ++ changeRun 2 ++ [.move 1 { token := lit "s2" }])
      (by decide +kernel)

end ArangeTun.Panel
