import ArangeTun.Stealth.Theorems

/-!
# Obfuscation of the rathole connections

The head of `handleIncoming`, `runControlClient` and `openDataChannel` (internal/rathole/rathole.go), with
`noiseHandshake`, `TLSServerConn` and `TLSClientConn` of internal/utils/network. "On failure the raw connection is
already closed", say the wrap functions.
-/

namespace ArangeTun.Rathole

open Go Noise Stealth

/-! ## Modes -/

inductive ObfsMode
  | none
  | noise
  | tls
  deriving DecidableEq

def resolveObfs (obfs : Str) (stealth : Bool) : ObfsMode :=
  if obfs = lit "noise" then .noise
  else if obfs = lit "tls" then .tls
  else if obfs = lit "none" then .none
  else if stealth then .noise
  else .none

structure Config where
  obfs : Str
  stealth : Bool
  token : Str

def Config.obfsMode (cfg : Config) : ObfsMode := resolveObfs cfg.obfs cfg.stealth

/-! ## Wrapping -/

/-- A TCP connection: what it will deliver, what it takes, and whether this end has closed it. -/
structure RawConn where
  r : Stream
  w : Pipe
  closed : Bool
  deriving DecidableEq

def RawConn.close (raw : RawConn) : RawConn := { raw with closed := true }

/-- The libraries: the key from the token, the Noise handshake, and the error with which a TLS handshake ends. -/
structure Libraries (κ ε : Type) where
  noisePSK : Str → Except Error Str
  newHandshakeState : (psk : Str) → (initiator : Bool) → Option Error
  suite : Suite κ ε
  tlsServer : RawConn → Option Error
  tlsClient : RawConn → Option Error

inductive Wrapped (κ : Type)
  | raw
  | noise (conn : NoiseConn κ)
  | tls

section

variable {κ ε : Type} (L : Libraries κ ε) (e : ε)

def noiseHandshake (raw : RawConn) (token : Str) (initiator : Bool) : Except Error (Wrapped κ) × RawConn :=
  match L.noisePSK token with
  | .error err => (.error err, raw)
  | .ok psk =>
    match L.newHandshakeState psk initiator with
    | some err => (.error err, raw)
    | none =>
      if initiator then
        match initiatorHello L.suite psk .current e raw.w with
        | .error err => (.error err, raw)
        | .ok w =>
          match initiatorFinish L.suite psk .current e raw.r with
          | .error err => (.error err, { raw with w })
          | .ok (conn, r) => (.ok (.noise conn), { raw with r, w })
      else
        match responder L.suite psk .current e raw.r raw.w with
        | .error err => (.error err, raw)
        | .ok (conn, r, w) => (.ok (.noise conn), { raw with r, w })

/-- `TLSServerConn` and `uTLSClientConn`, which close the connection when the handshake fails. -/
def tlsConn (handshake : RawConn → Option Error) (raw : RawConn) : Except Error (Wrapped κ) × RawConn :=
  match handshake raw with
  | some err => (.error err, raw.close)
  | none => (.ok .tls, raw)

def obfsWrap (initiator : Bool) (tlsHandshake : RawConn → Option Error) (cfg : Config) (raw : RawConn) :
    Except Error (Wrapped κ) × RawConn :=
  match cfg.obfsMode with
  | .noise => noiseHandshake L e raw cfg.token initiator
  | .tls => tlsConn tlsHandshake raw
  | .none => (.ok .raw, raw)

def serverObfsWrap : Config → RawConn → Except Error (Wrapped κ) × RawConn := obfsWrap L e false L.tlsServer

def clientObfsWrap : Config → RawConn → Except Error (Wrapped κ) × RawConn := obfsWrap L e true L.tlsClient

/-- The function has returned, with its error if it gives one, or goes on with the wrapped connection. -/
inductive Head (κ : Type)
  | returned (err : Option Error) (raw : RawConn)
  | goesOn (conn : Wrapped κ) (raw : RawConn)

/-- A failed wrap ends the function. `report` is the error that it returns then. -/
def head (report : Error → Option Error) : Except Error (Wrapped κ) × RawConn → Head κ
  | (.error err, raw) => .returned (report err) raw
  | (.ok conn, raw) => .goesOn conn raw

def handleIncoming (cfg : Config) (raw : RawConn) : Head κ := head (fun _ => none) (serverObfsWrap L e cfg raw)

def runControlClient (cfg : Config) (raw : RawConn) : Head κ :=
  head (fun err => some (.wrapped (lit "obfuscation handshake failed: ") err)) (clientObfsWrap L e cfg raw)

def openDataChannel (cfg : Config) (raw : RawConn) : Head κ := head (fun _ => none) (clientObfsWrap L e cfg raw)

inductive Entry
  | handleIncoming
  | runControlClient
  | openDataChannel
  deriving DecidableEq

def Entry.run : Entry → Config → RawConn → Head κ
  | .handleIncoming => Rathole.handleIncoming L e
  | .runControlClient => Rathole.runControlClient L e
  | .openDataChannel => Rathole.openDataChannel L e

/-! ## What is closed on failure -/

variable {L e} {raw raw' : RawConn} {cfg : Config} {initiator : Bool} {tlsHandshake : RawConn → Option Error}

theorem noiseHandshake_closed {token : Str} {res : Except Error (Wrapped κ)}
    (h : noiseHandshake L e raw token initiator = (res, raw')) : raw'.closed = raw.closed := by
  unfold noiseHandshake at h
  split at h
  · cases h
    rfl
  · split at h
    · cases h
      rfl
    · split at h
      · split at h
        · cases h
          rfl
        · split at h
          · cases h
            rfl
          · cases h
            rfl
      · split at h
        · cases h
          rfl
        · cases h
          rfl

theorem tlsConn_closed {err : Error} (h : (tlsConn tlsHandshake raw : Except Error (Wrapped κ) × RawConn) =
    (.error err, raw')) : raw'.closed = true := by
  unfold tlsConn at h
  split at h
  · cases h
    rfl
  · cases h

theorem obfsWrap_closed {err : Error} (hopen : raw.closed = false)
    (h : obfsWrap L e initiator tlsHandshake cfg raw = (.error err, raw')) :
    raw'.closed = true ↔ cfg.obfsMode ≠ .noise := by
  unfold obfsWrap at h
  cases hmode : cfg.obfsMode with
  | noise =>
    simp only [hmode] at h
    simp [noiseHandshake_closed h, hopen]
  | tls =>
    simp only [hmode] at h
    simp [tlsConn_closed h]
  | none =>
    simp only [hmode] at h
    cases h

theorem head_eq_returned {report : Error → Option Error} {res : Except Error (Wrapped κ) × RawConn}
    {err : Option Error} (h : head report res = .returned err raw') : ∃ err', res = (.error err', raw') := by
  unfold head at h
  split at h
  · cases h
    exact ⟨_, rfl⟩
  · cases h

/-- A function that returns because its handshake failed has closed the connection in every mode but `noise`. -/
theorem failed_closed_iff {entry : Entry} {err : Option Error} (hopen : raw.closed = false)
    (h : entry.run L e cfg raw = .returned err raw') : raw'.closed = true ↔ cfg.obfsMode ≠ .noise := by
  cases entry with
  | handleIncoming | runControlClient | openDataChannel =>
    obtain ⟨_, hwrap⟩ := head_eq_returned h
    exact obfsWrap_closed hopen hwrap

end

def plainLibraries : Libraries Unit Unit where
  noisePSK token := .ok token
  newHandshakeState _ _ := none
  suite := plainSuite
  tlsServer raw := if raw.r.bytes = [] then some raw.r.ending else none
  tlsClient raw := if raw.r.bytes = [] then some raw.r.ending else none

def silentPeer : RawConn := ⟨⟨[], .net true⟩, ⟨[], none⟩, false⟩

theorem failed_closed_iff_tls :
    Entry.handleIncoming.run plainLibraries () ⟨lit "tls", false, lit "t"⟩ silentPeer =
        .returned none silentPeer.close ∧
      (silentPeer.close.closed = true ↔ (Config.mk (lit "tls") false (lit "t")).obfsMode ≠ .noise) := by
  have hrun : Entry.handleIncoming.run plainLibraries () ⟨lit "tls", false, lit "t"⟩ silentPeer =
      .returned none silentPeer.close := rfl
  exact ⟨hrun, failed_closed_iff rfl hrun⟩

/-- With the mode `noise` the server and both dials of the client return and leave the connection open. -/
theorem noise_failure_leaks :
    Entry.handleIncoming.run plainLibraries () ⟨lit "noise", false, lit "t"⟩ silentPeer = .returned none silentPeer ∧
      (∃ err w, Entry.runControlClient.run plainLibraries () ⟨lit "noise", false, lit "t"⟩ silentPeer =
        .returned err ⟨silentPeer.r, w, false⟩) ∧
      (∃ err w, Entry.openDataChannel.run plainLibraries () ⟨lit "noise", false, lit "t"⟩ silentPeer =
        .returned err ⟨silentPeer.r, w, false⟩) ∧
      silentPeer.closed = false :=
  ⟨rfl, ⟨_, _, rfl⟩, ⟨_, _, rfl⟩, rfl⟩

end ArangeTun.Rathole
