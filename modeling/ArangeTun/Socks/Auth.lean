import ArangeTun.Socks.Model

/-! # Nothing is opened without authentication -/

namespace ArangeTun.Socks

open Go Proc

def Call.Opens : Call → Prop
  | .auth _ _ => False
  | .dial _ => True
  | .associate => True

/-! ## The sub-negotiation -/

def credentialLabels (user pass : Str) (ok : Bool) : List (Label Call) :=
  [.read [0x01, UInt8.ofNat user.length], .read user, .read [UInt8.ofNat pass.length], .read pass,
    .call (.auth user pass) ok]

def Silent (ls : List (Label Call)) : Prop := sent ls = [] ∧ calls ls = []

theorem ofNat_toNat_length {b : Str} {c : UInt8} (h : b.length = c.toNat) : UInt8.ofNat b.length = c := by
  rw [h, UInt8.ofNat_toNat]

theorem length_two {b : Str} (h : b.length = 2) : b = [b.getD 0 0, b.getD 1 0] := by
  obtain ⟨x, y, rfl⟩ := List.length_eq_two.mp h
  rfl

theorem length_one {b : Str} (h : b.length = 1) : b = [b.getD 0 0] := by
  obtain ⟨x, rfl⟩ := List.length_eq_one_iff.mp h
  rfl

variable {ρ : Type} {input : Str} {Q : List (Label Call) → Server ρ → Prop}

/-- `readAuth` gets to the authentication function with the pair that was sent, or the rest of the code runs
with `false` and nothing was written or called. -/
theorem ensures_readAuth {f : Bool → Server ρ} (hwait : ∀ ls p, Silent ls → Q ls p)
    (hfail : ∀ ls rest, Silent ls → Ensures (f false) rest fun ls' => Q (ls ++ ls'))
    (hcall : ∀ user pass rest ok, user.length < 256 → pass.length < 256 → input = credentials user pass ++ rest →
      Ensures (f ok) rest fun ls' => Q (credentialLabels user pass ok ++ ls')) :
    Ensures (readAuth true >>= f) input Q := by
  have hquit : ∀ ls rest, Silent ls → Ensures (pure false >>= f) rest fun ls' => Q (ls ++ ls') := by
    intro ls rest hls
    simpa using hfail ls rest hls
  unfold readAuth
  rw [bind_assoc]
  refine .readFull (hwait _ _ ⟨rfl, rfl⟩) (fun h rest₁ h₁ hlen₁ => ?_)
    fun part err rest => hquit [.readFails part err] rest ⟨rfl, rfl⟩
  dsimp only
  split
  · exact hquit [.read h] rest₁ ⟨rfl, rfl⟩
  rename_i hver
  rw [bind_assoc]
  refine .readFull (hwait _ _ ⟨rfl, rfl⟩) (fun user rest₂ h₂ hlen₂ => ?_)
    fun part err rest => hquit [.read h, .readFails part err] rest ⟨rfl, rfl⟩
  dsimp only
  rw [bind_assoc]
  refine .readFull (hwait _ _ ⟨rfl, rfl⟩) (fun pl rest₃ h₃ hlen₃ => ?_)
    fun part err rest => hquit [.read h, .read user, .readFails part err] rest ⟨rfl, rfl⟩
  dsimp only
  rw [bind_assoc]
  refine .readFull (hwait _ _ ⟨rfl, rfl⟩) (fun pass rest₄ h₄ hlen₄ => ?_)
    fun part err rest => hquit [.read h, .read user, .read pl, .readFails part err] rest ⟨rfl, rfl⟩
  refine .call (hwait _ _ ⟨rfl, rfl⟩) fun ok => ?_
  have hh : h = [0x01, UInt8.ofNat user.length] := by
    rw [length_two hlen₁, not_not.mp hver, ofNat_toNat_length hlen₂]
  have hpl : pl = [UInt8.ofNat pass.length] := by rw [length_one hlen₃, ofNat_toNat_length hlen₄]
  subst h₁ h₂ h₃ h₄
  have := hcall user pass rest₄ ok (hlen₂ ▸ UInt8.toNat_lt _) (hlen₄ ▸ UInt8.toNat_lt _)
    (by simp [credentials, hh, hpl])
  simpa [credentialLabels, hh, hpl] using this

/-! ## The whole handshake -/

/-- What must have been read, and answered, before something may be opened. -/
def Authorized (auth : Bool) (input : Str) (ls : List (Label Call)) : Prop :=
  ∃ methods rest, input = [ver5, UInt8.ofNat methods.length] ++ methods ++ rest ∧ methods.length < 256 ∧
    (auth = false ∧ authNone ∈ methods ∨
      auth = true ∧ authUP ∈ methods ∧ ∃ user pass rest', rest = credentials user pass ++ rest' ∧
        user.length < 256 ∧ pass.length < 256 ∧ .call (.auth user pass) true ∈ ls)

theorem hasMethod_eq_true {methods : Str} {m : UInt8} : hasMethod methods m = true ↔ m ∈ methods := by
  simp [hasMethod]

theorem ensures_handle_authorized (ipString : Str → Str) (auth : Bool) (input : Str) :
    Ensures (handle ipString auth) input fun ls _ => (∃ c ∈ calls ls, c.Opens) → Authorized auth input ls := by
  unfold handle
  refine .readFull (by simp) (fun br rest₁ h₁ hlen₁ => ?_) fun part err rest => .pure (by simp)
  dsimp only
  split
  · exact .pure (by simp)
  rename_i hver
  refine .readFull (by simp) (fun methods rest₂ h₂ hlen₂ => ?_)
    fun part err rest => .pure (by simp)
  dsimp only
  have hinput : input = [ver5, UInt8.ofNat methods.length] ++ methods ++ rest₂ := by
    rw [h₁, h₂, length_two hlen₁, not_not.mp hver, ofNat_toNat_length hlen₂]
    simp
  have hmethods : methods.length < 256 := hlen₂ ▸ UInt8.toNat_lt _
  cases auth with
  | false =>
    unfold authenticate
    simp only [↓reduceIte]
    split
    · simp only [bind_assoc, pure_bind]
      exact .write_pure (by simp) fun l _ hl => by simp [calls_cons hl]
    · rename_i hm
      simp only [bind_assoc, pure_bind]
      refine .write_ (by simp) fun l _ hl _ => .of_forall fun ls p' _ => ?_
      exact ⟨methods, rest₂, hinput, hmethods, .inl ⟨rfl, hasMethod_eq_true.mp (Bool.eq_true_of_not_eq_false hm)⟩⟩
  | true =>
    unfold authenticate
    simp only [Bool.true_eq_false, ↓reduceIte]
    split
    · simp only [bind_assoc, pure_bind]
      exact .write_pure (by simp) fun l _ hl => by simp [calls_cons hl]
    · rename_i hm
      simp only [bind_assoc]
      refine .write_ (by simp) fun l _ hl _ => ?_
      refine ensures_readAuth ?_ ?_ ?_
      · intro ls p' hls
        simp [calls_cons hl, hls.2]
      · intro ls rest hls
        simp only [Bool.false_eq_true, ↓reduceIte, bind_assoc, pure_bind]
        refine .write_pure ?_ fun l' _ hl' => ?_
        · simp [calls_cons hl, hls.2]
        · simp [calls_cons hl, calls_append, hls.2, calls_cons hl']
      · intro user pass rest ok huser hpass hrest
        cases ok with
        | false =>
          simp only [Bool.false_eq_true, ↓reduceIte, bind_assoc, pure_bind]
          refine .write_pure ?_ fun l' _ hl' => ?_
          · simp [calls_cons hl, credentialLabels, Call.Opens]
          · simp [calls_cons hl, credentialLabels, Call.Opens, calls_cons hl']
        | true =>
          refine .of_forall fun ls p' _ => ?_
          refine ⟨methods, rest₂, hinput, hmethods, .inr ⟨rfl, ?_, user, pass, rest, hrest, huser, hpass, ?_⟩⟩
          · exact hasMethod_eq_true.mp (Bool.eq_true_of_not_eq_false hm)
          · simp [credentialLabels]

/-- Whatever the client sends and whatever the authentication function is, a dial or a UDP association comes
after a complete authentication. -/
theorem authorized_of_opens (ipString : Str → Str) {auth ok : Bool} {before after : List (Label Call)} {c : Call}
    {p : Server Unit} (h : Transition.run Proc.step (handle ipString auth) (before ++ .call c ok :: after) = some p)
    (hc : c.Opens) : Authorized auth (received before) before := by
  rw [List.append_cons, Transition.run_append, Option.bind_eq_some_iff] at h
  obtain ⟨p₁, hrun, _⟩ := h
  have hbytes : received (before ++ [.call c ok]) = received before := by
    rw [received_append]
    exact List.append_nil _
  have hmem : c ∈ calls (before ++ [.call c ok]) := by simp [calls_append]
  obtain ⟨methods, rest, hinput, hlen, hauth⟩ :=
    ensures_handle_authorized ipString auth _ _ _ hrun (List.prefix_refl _) ⟨c, hmem, hc⟩
  rw [hbytes] at hinput
  refine ⟨methods, rest, hinput, hlen, hauth.imp_right ?_⟩
  rintro ⟨hauth, hup, user, pass, rest', hrest, huser, hpass, hcall⟩
  refine ⟨hauth, hup, user, pass, rest', hrest, huser, hpass, ?_⟩
  rcases List.mem_append.mp hcall with hcall | hcall
  · exact hcall
  · simp only [List.mem_singleton, Label.call.injEq] at hcall
    rw [← hcall.1] at hc
    exact hc.elim

def session : List (Label Call) :=
  [.read [5, 1], .read [2], .write [5, 2]] ++ credentialLabels (lit "u") (lit "p") true ++
    [.write [1, 0], .read [5, 1, 0, 3], .read [1], .read (lit "h"), .read [0, 80]]

theorem authorized_of_opens_session : Authorized true (received session) session :=
  authorized_of_opens id (show Transition.run Proc.step (handle id true)
    (session ++ [.call (.dial (lit "h:80")) true]) = some (do reply repOK; .stream (lit "h:80")) from rfl) trivial

end ArangeTun.Socks
