import ArangeTun.Go.Binary
import ArangeTun.Noise.Suite
import ArangeTun.Transition.Run

/-!
# The stealth transport

internal/utils/network/noise.go.
-/

namespace ArangeTun.Stealth

open Go Noise

def noiseMaxPayload : Nat := 65535 - 16

def noiseVersion : UInt8 := 1

def noiseVersionPadding : UInt8 := 1

def noiseMaxPad : Nat := 255

def noisePaddedMaxPayload : Nat := noiseMaxPayload - 1 - noiseMaxPad

/-! ## Frames -/

structure Pipe where
  bytes : Str
  limit : Option (Nat × Error)
  deriving DecidableEq

def Pipe.write (w : Pipe) (b : Str) : Pipe × Option Error :=
  match w.limit with
  | none => (⟨w.bytes ++ b, none⟩, none)
  | some (room, err) =>
    if b.length ≤ room then (⟨w.bytes ++ b, some (room - b.length, err)⟩, none)
    else (⟨w.bytes ++ b.take room, some (0, err)⟩, some err)

def noiseFrame (msg : Str) : Str := putUint16 (UInt16.ofNat msg.length) ++ msg

def writeNoiseFrame (w : Pipe) (msg : Str) : Pipe × Option Error :=
  if msg.length > 65535 then
    (w, some (.other (lit "noise: message too large (" ++ decimal msg.length ++ lit " bytes)")))
  else w.write (noiseFrame msg)

def readNoiseFrame (r : Stream) : Except Error (Str × Stream) :=
  match readFull r 2 with
  | .error err => .error err
  | .ok (hdr, r) =>
    if be16 hdr 0 = 0 then .error (.other (lit "noise: empty frame")) else readFull r (be16 hdr 0).toNat

/-! ## The handshake -/

structure NoiseConn (κ : Type) where
  pad : Bool
  send : CipherState κ
  -- the array behind the slice, as long as its capacity
  padBuf : Str
  recv : CipherState κ
  readBuf : Str

/-- This build, or one from before the negotiation: it sends empty payloads, does not look at those it gets, and its
record layer has no padding. -/
inductive Build
  | current
  | legacy
  deriving DecidableEq

def versionFromPayload : Str → UInt8
  | [] => 0
  | version :: _ => version

def Build.firstPayload : Build → Str
  | .current => [noiseVersion]
  | .legacy => []

def Build.reply (peerVersion : UInt8) : Build → Str
  | .current => if peerVersion > 0 then [noiseVersion] else []
  | .legacy => []

def Build.pads (peerVersion : UInt8) : Build → Bool
  | .current => noiseVersion ≥ noiseVersionPadding && peerVersion ≥ noiseVersionPadding
  | .legacy => false

section

variable {κ ε : Type} (S : Suite κ ε) (psk : Str) (b : Build) (e : ε)

def newNoiseConn (payload : Str) (send recv : κ) : NoiseConn κ :=
  ⟨b.pads (versionFromPayload payload), ⟨send, 0⟩, [], ⟨recv, 0⟩, []⟩

def initiatorHello (w : Pipe) : Except Error Pipe :=
  match writeNoiseFrame w (S.hello psk e b.firstPayload) with
  | (_, some err) => .error err
  | (w, none) => .ok w

def initiatorFinish (r : Stream) : Except Error (NoiseConn κ × Stream) :=
  match readNoiseFrame r with
  | .error err => .error err
  | .ok (message, r) =>
    match S.readAnswer psk e b.firstPayload message with
    | .error err => .error (.wrapped (lit "noise: handshake rejected: ") err)
    | .ok (payload, cs0, cs1) => .ok (newNoiseConn b payload cs0 cs1, r)

def responder (r : Stream) (w : Pipe) : Except Error (NoiseConn κ × Stream × Pipe) :=
  match readNoiseFrame r with
  | .error err => .error err
  | .ok (message, r) =>
    match S.readHello psk message with
    | .error err => .error (.wrapped (lit "noise: handshake rejected: ") err)
    | .ok payload =>
      let answer := S.answer psk message e (b.reply (versionFromPayload payload))
      match writeNoiseFrame w answer.1 with
      | (_, some err) => .error err
      | (w, none) => .ok (newNoiseConn b payload answer.2.2 answer.2.1, r, w)

end

/-- Both calls of `noiseHandshake` returned a connection, each reading what the other end wrote. -/
structure Completed {κ ε : Type} (S : Suite κ ε) (psk : Str) (a b : Build) (initiator acceptor : NoiseConn κ) : Prop where
  handshake : ∃ (e e' : ε) (w₀ w₁ w₀' w₁' : Pipe) (ending ending' : Error) (r r' : Stream),
    w₀.bytes = [] ∧ w₁.bytes = [] ∧ initiatorHello S psk a e w₀ = .ok w₀' ∧
      responder S psk b e' ⟨w₀'.bytes, ending⟩ w₁ = .ok (acceptor, r, w₁') ∧
      initiatorFinish S psk a e ⟨w₁'.bytes, ending'⟩ = .ok (initiator, r')

/-! ## The record layer -/

section

variable {κ : Type} (A : Aead κ)

def payloadLimit (pad : Bool) : Nat := if pad then noisePaddedMaxPayload else noiseMaxPayload

def plaintext (pad : Bool) (padBuf : Str) (padLen : UInt8) (chunk : Str) : Str × Str :=
  if pad then
    let need := 1 + chunk.length + padLen.toNat
    let padBuf := if padBuf.length < need then List.replicate need 0 else padBuf
    let view := clearFrom (copyAt (copyAt (padBuf.take need) 0 [padLen]) 1 chunk) (1 + chunk.length)
    (view, view ++ padBuf.drop need)
  else (chunk, padBuf)

def unpad (pad : Bool) (plain : Str) : Except Error Str :=
  if pad then
    match plain with
    | [] => .error (.other (lit "noise: padded record is empty"))
    | padLen :: _ =>
      if 1 + padLen.toNat > plain.length then
        .error (.other (lit "noise: padded record claims " ++ decimal padLen.toNat ++ lit " bytes of padding in " ++
          decimal plain.length ++ lit " bytes"))
      else .ok ((plain.take (plain.length - padLen.toNat)).drop 1)
  else .ok plain

structure Writer (κ : Type) where
  send : CipherState κ
  padBuf : Str
  out : Pipe
  frames : List Str

def writeRecord (pad : Bool) (w : Writer κ) (padLen : UInt8) (chunk : Str) : Writer κ × Option Error :=
  let plain := plaintext pad w.padBuf padLen chunk
  match w.send.encrypt A plain.1 with
  | .error err => ({ w with padBuf := plain.2 }, some err)
  | .ok (enc, send) =>
    let sent := writeNoiseFrame w.out enc
    (⟨send, plain.2, sent.1, w.frames ++ [enc]⟩, sent.2)

/-- The loop of `Write` for at most `turns` turns, with the padding lengths that are drawn in them: what is written,
the number of bytes and the error. -/
def writeLoop (pad : Bool) : (turns : Nat) → (draw : Nat → UInt8) → Writer κ → Str → Nat → Writer κ × Nat × Option Error
  | 0, _, w, _, total => (w, total, none)
  | turns + 1, draw, w, p, total =>
    if p = [] then (w, total, none)
    else
      let chunk := p.take (payloadLimit pad)
      match writeRecord A pad w (draw 0) chunk with
      | (w, some err) => (w, total, some err)
      | (w, none) =>
        writeLoop pad turns (fun i => draw (i + 1)) w (p.drop chunk.length) (total + chunk.length)

def fillReadBuf (pad : Bool) : (turns : Nat) → CipherState κ → Str → Stream → Except Error (CipherState κ × Str × Stream)
  | 0, recv, readBuf, r => .ok (recv, readBuf, r)
  | turns + 1, recv, readBuf, r =>
    if readBuf ≠ [] then .ok (recv, readBuf, r)
    else
      match readNoiseFrame r with
      | .error err => .error err
      | .ok (frame, r) =>
        match recv.decrypt A frame with
        | .error err => .error (.wrapped (lit "noise: record failed authentication: ") err)
        | .ok (plain, recv) =>
          match unpad pad plain with
          | .error err => .error err
          | .ok plain => fillReadBuf pad turns recv plain r

def NoiseConn.read (c : NoiseConn κ) (n : Nat) (r : Stream) : Except Error (Str × NoiseConn κ × Stream) :=
  match fillReadBuf A c.pad (r.bytes.length + 1) c.recv c.readBuf r with
  | .error err => .error err
  | .ok (recv, readBuf, r) => .ok (readBuf.take n, { c with recv := recv, readBuf := readBuf.drop n }, r)

end

/-! ## Two ends -/

structure WriteCall where
  p : Str
  n : Nat
  err : Option Error
  deriving DecidableEq

structure End (κ : Type) where
  conn : NoiseConn κ
  out : Pipe
  frames : List Str
  writes : List WriteCall
  returned : Str
  readErrors : List (Error × Error)

def End.written {κ : Type} (e : End κ) : Str := e.writes.flatMap WriteCall.p

structure State (κ : Type) where
  ends : Bool → End κ

inductive Action
  | write (side : Bool) (p : Str) (draw : Nat → UInt8)
  -- a `Read` that has the bytes it waits for, or whose raw connection ends with the error
  | read (side : Bool) (n : Nat) (ending : Error)

section

variable {κ : Type}

def State.initial (initiator acceptor : NoiseConn κ) (limit : Bool → Option (Nat × Error)) : State κ :=
  ⟨fun side => ⟨if side then initiator else acceptor, ⟨[], limit side⟩, [], [], [], []⟩⟩

def State.setEnd (s : State κ) (side : Bool) (e : End κ) : State κ := ⟨Function.update s.ends side e⟩

def End.write (A : Aead κ) (e : End κ) (p : Str) (draw : Nat → UInt8) : End κ :=
  let result := writeLoop A e.conn.pad p.length draw ⟨e.conn.send, e.conn.padBuf, e.out, e.frames⟩ p 0
  { e with
    conn := { e.conn with send := result.1.send, padBuf := result.1.padBuf }
    out := result.1.out
    frames := result.1.frames
    writes := e.writes ++ [⟨p, result.2.1, result.2.2⟩] }

def step (A : Aead κ) (s : State κ) : Action → Option (State κ)
  | .write side p draw => some (s.setEnd side ((s.ends side).write A p draw))
  | .read side n ending =>
    let e := s.ends side
    let peer := s.ends !side
    if e.readErrors ≠ [] then none
    else
      match e.conn.read A n ⟨peer.out.bytes, ending⟩ with
      | .error err => some (s.setEnd side { e with readErrors := [(ending, err)] })
      | .ok (data, conn, r) =>
        some ((s.setEnd side { e with conn := conn, returned := e.returned ++ data }).setEnd (!side)
          { peer with out := { peer.out with bytes := r.bytes } })

end

end ArangeTun.Stealth
