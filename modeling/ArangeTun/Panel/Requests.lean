import ArangeTun.Panel.Login
import ArangeTun.Transition.Threads

/-! # Concurrent requests to the panel -/

namespace ArangeTun.Panel

open Go Transition

/-! ## Configurations in the file -/

structure Json where
  text : Str → Str
  text_text : ∀ s, text (text s) = text s

def Json.stored (json : Json) (c : Config) : Config :=
  { c with
    password := json.text c.password
    bind := json.text c.bind
    remoteToken := json.text c.remoteToken
    tlsDomain := json.text c.tlsDomain
    tlsEmail := json.text c.tlsEmail }

/-! ## Requests that change the configuration -/

inductive CertMode
  | http
  | self
  | acme (domain email : Str)
  deriving DecidableEq

/-- What a request changes: handlePassword, handleSecurity, handlePanelPort, applyPanelCert, handleRemoteToken. -/
inductive Edit
  | password (pw : Str)
  | security (twoFA notify : Bool)
  | panelPort (p : Int)
  | panelCert (mode : CertMode)
  | remoteToken (token : Str)
  deriving DecidableEq

namespace Edit

def apply (c : Config) : Edit → Config
  | password pw => { c with password := pw }
  | security twoFA notify => { c with twoFA := twoFA, loginNotify := notify }
  | panelPort p => { c with port := p }
  | panelCert .http => { c with https := false, tlsDomain := [], tlsEmail := [] }
  | panelCert .self => { c with https := true, tlsDomain := [], tlsEmail := [] }
  | panelCert (.acme domain email) => { c with https := true, tlsDomain := domain, tlsEmail := email }
  | remoteToken token => { c with remoteToken := token }

def accepted (telegramReady : Bool) : Edit → Bool
  | password pw => minPasswordLen ≤ pw.length && pw.length ≤ 128
  | security twoFA notify => !((twoFA || notify) && !telegramReady)
  | panelPort p => 1 ≤ p && p ≤ 65535
  | _ => true

def unchanged (c : Config) : Edit → Bool
  | panelPort p => p = c.port
  | panelCert mode => (panelCert mode).apply c = c
  | _ => false

def isPassword : Edit → Bool
  | password _ => true
  | _ => false

def ofForm : Edit → Edit
  | password v => password (trimSpace v)
  | e => e

end Edit

/-! ## What is kept beside the state, to speak about runs -/

inductive Origin
  | password
  | code (token : Str)
  deriving DecidableEq

inductive Event
  | checked (i : Nat) (given stored : Str)
  | started (i : Nat) (token code : Str) (at_ : Nat)
  | tried (i : Nat) (token given : Str) (at_ : Nat) (verdict : Verdict)
  | created (i : Nat) (tok : Str) (origin : Origin) (twoFA : Bool)
  deriving DecidableEq

structure Trace where
  history : List Event := []
  /-- The tokens handed out with a code, each with the password its login gave. -/
  asked : List (Str × Str) := []
  used : Str → Option Str := fun _ => none
  latest : Option Nat := none
  cleared : Bool := false
  /-- The password that `handlePassword` has answered for, until it is changed again. -/
  final : Option Str := none

structure Shared where
  now : Nat
  saved : Config
  telegramReady : Bool
  server : Server := {}
  trace : Trace := {}

inductive Pc
  | compare (ip given : Str)
  | fail (ip : Str)
  | reset (ip given : Str)
  | readTwoFA (ip given : Str)
  | readTelegram (ip given : Str)
  | start (given : Str)
  | send (token : Str)
  | cancel (token : Str)
  | create (ip given : Str)
  | createCode (ip token : Str)
  | load (e : Edit)
  | save (e : Edit) (c : Config)
  | clear (pw : Str)
  | answer (pw : Str)
  | done
  deriving DecidableEq

def Pc.afterSave : Edit → Pc
  | .password pw => .clear pw
  | _ => .done

inductive Arrival
  | login (ip given : Str)
  | login2FA (ip token given : Str)
  | edit (cookie : Str) (e : Edit)
  | logout (tok : Str)
  | revokeOthers (cookie : Str)

/-- What comes from outside at a step: random strings, and whether a call succeeds. -/
structure Input where
  token : Str := []
  code : Str := []
  ok : Bool := true

inductive Change
  | tick (d : Nat)
  | telegram (ready : Bool)

namespace Shared

variable (sh : Shared)

def log (e : Event) : Shared := { sh with trace := { sh.trace with history := e :: sh.trace.history } }

def setSessions (f : Sessions) : Shared := { sh with server := { sh.server with sessions := f } }

def setLimiter (l : Limiter) : Shared := { sh with server := { sh.server with limiter := l } }

def setTwoFA (t : TwoFAStore) : Shared := { sh with server := { sh.server with twoFA := t } }

def create (i : Nat) (tok ip : Str) (origin : Origin) (used : Option Str) : Shared :=
  let sh := (sh.setSessions (sh.server.sessions.create sh.now tok ip)).log (.created i tok origin sh.saved.twoFA)
  { sh with trace := { sh.trace with used := Function.update sh.trace.used tok used } }

def start (i : Nat) (token code given : Str) : Shared :=
  let sh := (sh.setTwoFA (sh.server.twoFA.start sh.now token code)).log (.started i token code sh.now)
  { sh with trace := { sh.trace with asked := (token, given) :: sh.trace.asked } }

def verify (i : Nat) (token given : Str) : Shared × Verdict :=
  let (t, v) := sh.server.twoFA.verify sh.now token given
  (if (sh.server.twoFA token).isSome then (sh.setTwoFA t).log (.tried i token given sh.now v) else sh.setTwoFA t, v)

def save (json : Json) (i : Nat) (e : Edit) (c : Config) : Shared :=
  { sh with
    saved := json.stored (e.apply c)
    trace := if e.isPassword then { sh.trace with latest := some i, cleared := false, final := none } else sh.trace }

def clear (i : Nat) : Shared :=
  let sh := sh.setSessions .empty
  { sh with trace := { sh.trace with cleared := sh.trace.cleared || sh.trace.latest = some i } }

def answer (i : Nat) (pw : Str) : Shared :=
  { sh with trace := if sh.trace.latest = some i then { sh.trace with final := some pw } else sh.trace }

def requireAuth (cookie : Str) : Bool × Shared :=
  let (ok, f) := sh.server.sessions.valid sh.now cookie
  (ok, sh.setSessions f)

end Shared

/-! ## The steps -/

section

variable (sh : Shared) (i : Nat)

def arriveLogin (ip given : Str) : Shared × Pc :=
  let (left, l) := sh.server.limiter.blocked sh.now ip
  (sh.setLimiter l, if left.isSome then .done else .compare ip given)

def arriveLogin2FA (ip token given : Str) : Shared × Pc :=
  let (sh, v) := sh.verify i token (trimSpace given)
  (sh, if v = .ok then .createCode ip token else .done)

def arriveEdit (cookie : Str) (e : Edit) : Shared × Pc :=
  let (ok, sh) := sh.requireAuth cookie
  (sh, if ok && e.ofForm.accepted sh.telegramReady then .load e.ofForm else .done)

def arriveRevokeOthers (cookie : Str) : Shared × Pc :=
  let (ok, sh) := sh.requireAuth cookie
  (if ok then sh.setSessions (sh.server.sessions.revokeOthers cookie) else sh, .done)

def enter : Arrival → Shared × Pc
  | .login ip given => arriveLogin sh ip given
  | .login2FA ip token given => arriveLogin2FA sh i ip token given
  | .edit cookie e => arriveEdit sh cookie e
  | .logout tok => (sh.setSessions (sh.server.sessions.destroy tok), .done)
  | .revokeOthers cookie => arriveRevokeOthers sh cookie

end

/-- The requests read a webui.json that is there and that the panel has written: every `Load` gets what was saved. -/
def move (json : Json) (sh : Shared) (i : Nat) : Pc → Input → Option (Shared × Pc)
  | .compare ip given, _ =>
    let stored := sh.saved.filled.password
    some (sh.log (.checked i given stored), if given = stored then .reset ip given else .fail ip)
  | .fail ip, _ => some (sh.setLimiter (sh.server.limiter.fail sh.now ip), .done)
  | .reset ip given, _ => some (sh.setLimiter (sh.server.limiter.reset ip), .readTwoFA ip given)
  | .readTwoFA ip given, _ => some (sh, if sh.saved.filled.twoFA then .readTelegram ip given else .create ip given)
  | .readTelegram ip given, _ => some (sh, if sh.telegramReady then .start given else .create ip given)
  | .start given, x =>
    if x.token ∈ sh.trace.asked.map Prod.fst then none
    else some (sh.start i x.token x.code given, .send x.token)
  | .send token, x => some (sh, if x.ok then .done else .cancel token)
  | .cancel token, _ => some (sh.setTwoFA (sh.server.twoFA.cancel token), .done)
  | .create ip given, x => some (sh.create i x.token ip .password (some given), .done)
  | .createCode ip token, x =>
    some (sh.create i x.token ip (.code token) (sh.trace.asked.lookup token), .done)
  | .load e, _ => some (sh, .save e sh.saved.filled)
  | .save e c, x =>
    -- without `ok` a check of the request or the write fails
    if x.ok && !e.unchanged c then some (sh.save json i e c, .afterSave e) else some (sh, .done)
  | .clear pw, _ => some (sh.clear i, .answer pw)
  | .answer pw, _ => some (sh.answer i pw, .done)
  | .done, _ => none

def change (sh : Shared) : Change → Shared
  | .tick d => { sh with now := sh.now + d }
  | .telegram ready => { sh with telegramReady := ready }

def panel (json : Json) : Program Shared Pc Arrival Input Change where
  enter sh i r := some (enter sh i r)
  move := move json
  env sh e := some (change sh e)

abbrev State := Threads Shared Pc

abbrev Action := Act Arrival Input Change

def State.initial (json : Json) (now : Nat) (c : Config) (telegramReady : Bool) : State where
  shared := { now := now, saved := json.stored c, telegramReady := telegramReady }
  threads := []

def plainJson : Json := ⟨id, fun _ => rfl⟩

def loginRun (i : Nat) : List Action :=
  [.enter (.login (lit "203.0.113.9") (lit "12345678")), .move i {}, .move i {}, .move i {}]

namespace Shared

variable (sh : Shared) (json : Json) (i : Nat) (e : Edit) (c : Config) (pw : Str)

@[simp] theorem save_history : (sh.save json i e c).trace.history = sh.trace.history := by
  unfold save
  dsimp only
  split <;> rfl

@[simp] theorem save_asked : (sh.save json i e c).trace.asked = sh.trace.asked := by
  unfold save
  dsimp only
  split <;> rfl

@[simp] theorem answer_history : (sh.answer i pw).trace.history = sh.trace.history := by
  unfold answer
  dsimp only
  split <;> rfl

@[simp] theorem answer_asked : (sh.answer i pw).trace.asked = sh.trace.asked := by
  unfold answer
  dsimp only
  split <;> rfl

end Shared

/-! ## What an arrival does -/

section

variable {sh sh' : Shared} {i : Nat} {p : Pc} {r : Arrival}

def Pc.fresh : Pc → Bool
  | .compare .. | .load _ | .done => true
  | _ => false

/-- The cases of an arrival: sessions may go, and a code may be tried. -/
inductive Entered (sh : Shared) (i : Nat) : Shared → Pc → Prop
  | quiet {l : Limiter} {f : Sessions} {p : Pc} (hf : ∀ tok info, f tok = some info → sh.server.sessions tok = some info)
      (hp : p.fresh = true) : Entered sh i ((sh.setLimiter l).setSessions f) p
  | unknown {token : Str} (hnone : sh.server.twoFA token = none) :
      Entered sh i (sh.setTwoFA (sh.server.twoFA.delete token)) .done
  | passed {ip token given : Str} {q : PendingLogin} {t : TwoFAStore} (hq : sh.server.twoFA token = some q)
      (hv : sh.server.twoFA.verify sh.now token given = (t, .ok)) :
      Entered sh i ((sh.setTwoFA t).log (.tried i token given sh.now .ok)) (.createCode ip token)
  | refused {token given : Str} {q : PendingLogin} {t : TwoFAStore} {v : Verdict} (hq : sh.server.twoFA token = some q)
      (hv : sh.server.twoFA.verify sh.now token given = (t, v)) (hne : v ≠ .ok) :
      Entered sh i ((sh.setTwoFA t).log (.tried i token given sh.now v)) .done

theorem Sessions.valid_sub {f : Sessions} {now : Nat} {cookie tok : Str} {info : SessionInfo}
    (h : (f.valid now cookie).2 tok = some info) : f tok = some info := by
  unfold Sessions.valid at h
  split at h
  · exact h
  · split at h
    · exact (Map.delete_eq_some.mp h).2
    · exact h

theorem Sessions.revokeOthers_sub {f : Sessions} {cookie tok : Str} {info : SessionInfo}
    (h : f.revokeOthers cookie tok = some info) : f tok = some info :=
  (Option.ite_none_right_eq_some.mp h).2

theorem Pc.fresh_ite {b : Bool} {p q : Pc} (hp : p.fresh = true) (hq : q.fresh = true) :
    (if b then p else q).fresh = true := by
  cases b
  · exact hq
  · exact hp

theorem entered_login {ip given : Str} : Entered sh i (arriveLogin sh ip given).1 (arriveLogin sh ip given).2 := by
  unfold arriveLogin
  rcases sh.server.limiter.blocked sh.now ip with ⟨left, l⟩
  refine @Entered.quiet sh i l sh.server.sessions _ (fun _ _ h => h) ?_
  apply Pc.fresh_ite <;> rfl

theorem entered_login2FA {ip token given : Str} :
    Entered sh i (arriveLogin2FA sh i ip token given).1 (arriveLogin2FA sh i ip token given).2 := by
  unfold arriveLogin2FA Shared.verify
  rcases hv : sh.server.twoFA.verify sh.now token (trimSpace given) with ⟨t, v⟩
  cases hq : sh.server.twoFA token with
  | none =>
    rw [TwoFAStore.verify, hq] at hv
    cases hv
    exact .unknown hq
  | some q =>
    cases v with
    | ok => exact .passed hq hv
    | dead | again => exact .refused hq hv nofun

theorem entered_edit {cookie : Str} {e : Edit} : Entered sh i (arriveEdit sh cookie e).1 (arriveEdit sh cookie e).2 := by
  unfold arriveEdit Shared.requireAuth
  have hsub := @Sessions.valid_sub sh.server.sessions sh.now cookie
  generalize sh.server.sessions.valid sh.now cookie = b at *
  refine Entered.quiet (l := sh.server.limiter) (fun _ _ h => hsub h) ?_
  apply Pc.fresh_ite <;> rfl

theorem entered_revokeOthers {cookie : Str} :
    Entered sh i (arriveRevokeOthers sh cookie).1 (arriveRevokeOthers sh cookie).2 := by
  unfold arriveRevokeOthers Shared.requireAuth
  have hsub := @Sessions.valid_sub sh.server.sessions sh.now cookie
  generalize sh.server.sessions.valid sh.now cookie = b at *
  obtain ⟨_ | _, f⟩ := b
  · exact Entered.quiet (l := sh.server.limiter) (fun _ _ h => hsub h) rfl
  · exact Entered.quiet (l := sh.server.limiter) (fun _ _ h => hsub (Sessions.revokeOthers_sub h)) rfl

theorem entered (h : enter sh i r = (sh', p)) : Entered sh i sh' p := by
  obtain ⟨rfl, rfl⟩ : (enter sh i r).1 = sh' ∧ (enter sh i r).2 = p := by simp [h]
  cases r with
  | login => exact entered_login
  | login2FA => exact entered_login2FA
  | edit => exact entered_edit
  | logout => exact Entered.quiet (l := sh.server.limiter) (fun _ _ h => (Map.delete_eq_some.mp h).2) rfl
  | revokeOthers => exact entered_revokeOthers

end

end ArangeTun.Panel
