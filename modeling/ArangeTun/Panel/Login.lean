import ArangeTun.Panel.Model

/-!
# Logging in to the panel

`handleLogin` of server.go, as one request by itself.
-/

namespace ArangeTun.Panel

open Go

inductive Read
  | password
  | twoFA
  | notify
  | cookie
  deriving DecidableEq

structure Request where
  post : Bool
  ip : Str
  password : Str

structure Meets where
  now : Nat
  file : Read → Option Str
  telegramReady : Read → Bool
  sent : Bool
  token : Str
  code : Str

inductive Response
  | loginPage
  | tooMany (minutes : Nat)
  | codePage (token : Str) (secure : Bool)
  | badGateway
  | welcome (token : Str) (secure notified : Bool)
  | unauthorized
  deriving DecidableEq

section

variable (unmarshal : Unmarshal) (m : Meets) (s : Server)

def Meets.load (r : Read) : Config := Panel.load unmarshal (m.file r)

def startTwoFA : Server × Option Response :=
  let twoFA := s.twoFA.start m.now m.token m.code
  if m.sent then ({ s with twoFA := twoFA }, some (.codePage m.token (m.load unmarshal .cookie).https))
  else ({ s with twoFA := twoFA.cancel m.token }, none)

def notifyLogin : Bool := (m.load unmarshal .notify).loginNotify && m.telegramReady .notify

def handleLogin (r : Request) : Server × Response :=
  if r.post then
    match s.limiter.blocked m.now r.ip with
    | (some left, limiter) => ({ s with limiter := limiter }, .tooMany (left / minute + 1))
    | (none, limiter) =>
      if r.password = (m.load unmarshal .password).password then
        let s := { s with limiter := limiter.reset r.ip }
        if (m.load unmarshal .twoFA).twoFA && m.telegramReady .twoFA then
          match startTwoFA unmarshal m s with
          | (s, some page) => (s, page)
          | (s, none) => (s, .badGateway)
        else
          ({ s with sessions := s.sessions.create m.now m.token r.ip },
            .welcome m.token (m.load unmarshal .cookie).https (notifyLogin unmarshal m))
      else ({ s with limiter := limiter.fail m.now r.ip }, .unauthorized)
  else (s, .loginPage)

end

variable {unmarshal : Unmarshal} {m : Meets} {s : Server} {r : Request}

/-- A session is created or the step with the code started, also when the code could not be sent. -/
def Response.Admits : Response → Prop
  | .welcome .. | .codePage .. | .badGateway => True
  | _ => False

def HasPassword (unmarshal : Unmarshal) (file : Option Str) : Prop :=
  ∃ data, file = some data ∧ (unmarshal data).2 = true ∧ (unmarshal data).1.password ≠ []

def TurnedAway (m : Meets) (s : Server) (r : Request) : Prop :=
  r.post = false ∨ (s.limiter.blocked m.now r.ip).1.isSome = true

theorem handleLogin_admits_iff :
    (handleLogin unmarshal m s r).2.Admits ↔
      ¬ TurnedAway m s r ∧ r.password = (m.load unmarshal .password).password := by
  unfold handleLogin TurnedAway
  by_cases hpost : r.post = true
  · rw [if_pos hpost]
    generalize s.limiter.blocked m.now r.ip = b
    obtain ⟨_ | left, l⟩ := b
    · dsimp only
      by_cases hpw : r.password = (m.load unmarshal .password).password
      · rw [if_pos hpw]
        by_cases hcode : ((m.load unmarshal .twoFA).twoFA && m.telegramReady .twoFA) = true
        · rw [if_pos hcode]
          cases hsent : m.sent <;> simp [startTwoFA, Response.Admits, hpost, hpw, hsent]
        · rw [if_neg hcode]
          simp [Response.Admits, hpost, hpw]
      · rw [if_neg hpw]
        simp [Response.Admits, hpw]
    · simp [Response.Admits]
  · rw [if_neg hpost]
    simp [Response.Admits, hpost]

/-- A login gets in only with the password of the configuration exactly when the file it is read from has one, or the
request is turned away, or gives another password than the one `Load` makes of the file. -/
theorem login_needs_password_iff :
    ((handleLogin unmarshal m s r).2.Admits →
        HasPassword unmarshal (m.file .password) ∧ r.password = (m.load unmarshal .password).password) ↔
      HasPassword unmarshal (m.file .password) ∨ TurnedAway m s r ∨
        r.password ≠ (m.load unmarshal .password).password := by
  rw [handleLogin_admits_iff]
  tauto

/-- There is no file, and an empty password gives a session. -/
theorem empty_password_admitted :
    let m : Meets := ⟨0, fun _ => none, fun _ => false, false, lit "t", []⟩
    let r : Request := ⟨true, lit "203.0.113.9", []⟩
    let out := handleLogin (fun _ => ({}, false)) m {} r
    out.2 = .welcome (lit "t") false false ∧ (out.1.sessions (lit "t")).isSome = true := by
  decide +kernel

end ArangeTun.Panel
