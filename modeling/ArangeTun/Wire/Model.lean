import ArangeTun.Go.Net

/-!
# What the two ends say to each other

internal/utils/signals.go, internal/utils/network/poolnonce.go, and the server's side of the control handshake in
internal/server/transport/announce.go and control.go.
-/

namespace ArangeTun.Wire

open Go

def SG_HB : UInt8 := 0
def SG_Chan : UInt8 := 1
def SG_Ping : UInt8 := 2
def SG_RTT : UInt8 := 6
def SG_ChanV2 : UInt8 := 7
def SG_Pool : UInt8 := 8

/-! ## The pool nonce -/

def poolNonceHexLen : Nat := 64

def hexByte (b : UInt8) : Str :=
  [b.toNat / 16, b.toNat % 16].map fun d => UInt8.ofNat (if d < 10 then 48 + d else 87 + d)

def newPoolNonce (random : Vector UInt8 32) : Str := random.toList.flatMap hexByte

def encodeControlAck (token nonce : Str) (muxVersion : Fin 10) : Str :=
  nonce ++ UInt8.ofNat (48 + muxVersion) :: token

structure ControlAck where
  token : Str
  nonce : Str
  muxVersion : Nat
  deriving DecidableEq

def decodeControlAck (ack : Str) : ControlAck :=
  match ack.drop poolNonceHexLen with
  | [] => ⟨[], [], 0⟩
  | c :: token => if (c - 48).toNat > 9 then ⟨[], [], 0⟩ else ⟨token, ack.take poolNonceHexLen, (c - 48).toNat⟩

def verify (want got : Str) : Bool := if want = [] then false else decide (got = want)

structure Announcement where
  signal : UInt8
  payload : Str
  deriving DecidableEq

def isControlSignal (sig : UInt8) : Bool := sig = SG_Chan ∨ sig = SG_ChanV2

def tokenMatches (got want : Str) : Bool := decide (got = want)

instance neZeroTen : NeZero 10 := ⟨nofun⟩

/-- The answer to a control handshake, the nonce it carries and the version it promises. -/
def controlAck (sig : UInt8) (token : Str) (muxVersion : Fin 10) (random : Option (Vector UInt8 32)) :
    Option (Str × Str × Fin 10) :=
  if sig ≠ SG_ChanV2 then some (token, [], 0)
  else random.map fun r => (encodeControlAck token (newPoolNonce r) muxVersion, newPoolNonce r, muxVersion)

def sameHost : Option Str → Option Str → Bool
  | some a, some b =>
    match splitHostPort a, splitHostPort b with
    | some (ha, _), some (hb, _) =>
      match parseIP ha, parseIP hb with
      | some ipa, some ipb => decide (ipa = ipb)
      | _, _ => decide (ha = hb)
    | _, _ => false
  | _, _ => false

theorem length_newPoolNonce (random : Vector UInt8 32) : (newPoolNonce random).length = poolNonceHexLen := by
  simp [newPoolNonce, List.length_flatMap, hexByte, poolNonceHexLen]

theorem newPoolNonce_ne_nil (random : Vector UInt8 32) : newPoolNonce random ≠ [] := by
  intro h
  have := length_newPoolNonce random
  rw [h] at this
  cases this

theorem decodeControlAck_encodeControlAck {nonce : Str} (token : Str) (v : Fin 10)
    (h : nonce.length = poolNonceHexLen) :
    decodeControlAck (encodeControlAck token nonce v) = ⟨token, nonce, v⟩ := by
  have hdigit : (UInt8.ofNat (48 + v) - 48).toNat = v := by
    revert v
    decide
  have hle : ¬ (v : Nat) > 9 := by omega
  simp only [decodeControlAck, encodeControlAck, List.drop_left' h, List.take_left' h, hdigit, hle,
    ↓reduceIte]

theorem decodeControlAck_short {ack : Str} (h : ack.length ≤ poolNonceHexLen) :
    decodeControlAck ack = ⟨[], [], 0⟩ := by
  simp only [decodeControlAck, List.drop_eq_nil_of_le h]

theorem encodeControlAck_decodeControlAck {ack : Str} (h : (decodeControlAck ack).token ≠ []) :
    ∃ v : Fin 10, (decodeControlAck ack).muxVersion = v ∧
      encodeControlAck (decodeControlAck ack).token (decodeControlAck ack).nonce v = ack := by
  cases hd : ack.drop poolNonceHexLen with
  | nil => simp [decodeControlAck, hd] at h
  | cons c token =>
    simp only [decodeControlAck, hd] at h ⊢
    split at h
    · exact absurd rfl h
    · rename_i hdigit
      have hc : UInt8.ofNat (48 + (c - 48).toNat) = c := by
        apply UInt8.toNat_inj.mp
        have hlt := c.toNat_lt
        rw [UInt8.toNat_ofNat', UInt8.toNat_sub]
        simp only [UInt8.reduceToNat]
        omega
      refine ⟨⟨(c - 48).toNat, by omega⟩, by rw [if_neg hdigit], ?_⟩
      rw [if_neg hdigit, encodeControlAck, hc, ← hd, List.take_append_drop]

end ArangeTun.Wire
