import ArangeTun.Go.Reader

/-! # The Noise protocol framework -/

namespace Noise

open Go

structure Aead (κ : Type) where
  encrypt : κ → Nat → Str → Str
  decrypt : κ → Nat → Str → Option Str
  decrypt_encrypt : ∀ k n p, decrypt k n (encrypt k n p) = some p
  length_encrypt : ∀ k n p, (encrypt k n p).length = p.length + 16

def maxNonce : Nat := 2 ^ 64 - 2

structure CipherState (κ : Type) where
  key : κ
  n : Nat

variable {κ : Type} {A : Aead κ} {s : CipherState κ}

def errMaxNonce : Error := .other (lit "noise: cipherstate has reached maximum n, a new handshake must be performed")

def CipherState.encrypt (A : Aead κ) (s : CipherState κ) (plaintext : Str) : Except Error (Str × CipherState κ) :=
  if s.n > maxNonce then .error errMaxNonce else .ok (A.encrypt s.key s.n plaintext, { s with n := s.n + 1 })

def CipherState.decrypt (A : Aead κ) (s : CipherState κ) (ciphertext : Str) : Except Error (Str × CipherState κ) :=
  if s.n > maxNonce then .error errMaxNonce
  else
    match A.decrypt s.key s.n ciphertext with
    | none => .error (.other (lit "chacha20poly1305: message authentication failed"))
    | some p => .ok (p, { s with n := s.n + 1 })

theorem CipherState.encrypt_of_le (h : s.n ≤ maxNonce) (p : Str) :
    s.encrypt A p = .ok (A.encrypt s.key s.n p, { s with n := s.n + 1 }) := if_neg (Nat.not_lt.mpr h)

theorem CipherState.encrypt_of_gt (h : maxNonce < s.n) (p : Str) : s.encrypt A p = .error errMaxNonce := if_pos h

theorem CipherState.decrypt_encrypt (h : s.n ≤ maxNonce) (p : Str) :
    s.decrypt A (A.encrypt s.key s.n p) = .ok (p, { s with n := s.n + 1 }) := by
  rw [CipherState.decrypt, if_neg (Nat.not_lt.mpr h), A.decrypt_encrypt]

structure Suite (κ ε : Type) extends Aead κ where
  hello : (psk : Str) → ε → (payload : Str) → Str
  readHello : (psk : Str) → (message : Str) → Except Error Str
  answer : (psk : Str) → (message : Str) → ε → (payload : Str) → Str × κ × κ
  readAnswer : (psk : Str) → ε → (sent : Str) → (message : Str) → Except Error (Str × κ × κ)
  readHello_hello : ∀ psk e p, readHello psk (hello psk e p) = .ok p
  readAnswer_answer : ∀ psk e e' p q,
    readAnswer psk e p (answer psk (hello psk e p) e' q).1 = .ok (q, (answer psk (hello psk e p) e' q).2)

end Noise
