import ArangeTun.Go.Binary
import ArangeTun.Go.Reader

/-!
# Framed strings

The strings of internal/utils/binary.go with a length before them, and those with a transport byte after
the length.
-/

namespace ArangeTun.Wire

open Go List

def messageLength (lenBuf : Str) : Nat := 256 * (lenBuf.getD 0 0).toNat + (lenBuf.getD 1 0).toNat

def receiveBinaryTransportString (conn : Stream) : Except Error (Str × UInt8) :=
  match readFull conn 3 with
  | .error err => .error (.wrapped (lit "failed to read message length from net.Conn: ") err)
  | .ok (lenBuf, conn) =>
    match readFull conn (messageLength lenBuf) with
    | .error err => .error (.wrapped (lit "failed to read message from net.Conn: ") err)
    | .ok (messageBuf, _) => .ok (messageBuf, lenBuf.getD 2 0)

def HasFrame (s : Stream) : Prop := 3 ≤ s.bytes.length ∧ 3 + messageLength s.bytes ≤ s.bytes.length

instance : DecidablePred HasFrame := fun s =>
  inferInstanceAs (Decidable (3 ≤ s.bytes.length ∧ 3 + messageLength s.bytes ≤ s.bytes.length))

theorem messageLength_take (s : Str) : messageLength (s.take 3) = messageLength s := by
  simp [messageLength]

theorem receive_of_hasFrame {s : Stream} (h : HasFrame s) :
    ∃ r, receiveBinaryTransportString s = .ok r := by
  have hrest : messageLength (s.bytes.take 3) ≤ (s.bytes.drop 3).length := by
    rw [messageLength_take, length_drop]
    have := h.2
    omega
  simp only [receiveBinaryTransportString, readFull_of_le h.1,
    readFull_of_le (s := { s with bytes := s.bytes.drop 3 }) hrest, Except.ok.injEq, exists_eq']

theorem receive_of_not_hasFrame {s : Stream} (h : ¬ HasFrame s) :
    ∃ e, receiveBinaryTransportString s = .error e ∧ e.asNetError = none ∧
      (e.cause = .net true ↔ s.ending.cause = .net true) := by
  by_cases h3 : 3 ≤ s.bytes.length
  · have hlt : (s.bytes.drop 3).length < messageLength (s.bytes.take 3) := by
      rw [messageLength_take, length_drop]
      have : ¬ 3 + messageLength s.bytes ≤ s.bytes.length := fun hle => h ⟨h3, hle⟩
      omega
    obtain ⟨e, he, hc⟩ := readFull_of_lt (s := { s with bytes := s.bytes.drop 3 }) hlt
    refine ⟨.wrapped (lit "failed to read message from net.Conn: ") e, ?_, rfl, hc⟩
    simp only [receiveBinaryTransportString, readFull_of_le h3, he]
  · obtain ⟨e, he, hc⟩ := readFull_of_lt (s := s) (n := 3) (by omega)
    refine ⟨.wrapped (lit "failed to read message length from net.Conn: ") e, ?_, rfl, hc⟩
    simp only [receiveBinaryTransportString, he]

/-! ## Sequences of strings -/

def sendFramed (conn : Sink) (header message : Str) : Except Error Sink :=
  match conn.write (header ++ message) with
  | .error err => .error (.wrapped (lit "failed to send message: ") err)
  | .ok conn => .ok conn

/-- `uint16(len(message))` in front of the message: a longer one leaves the length modulo 2^16. -/
def binaryHeader (message : Str) : Str := putUint16 (UInt16.ofNat message.length)

def sendBinaryString (conn : Sink) (message : Str) : Except Error Sink :=
  sendFramed conn (binaryHeader message) message

def sendBinaryTransportString (conn : Sink) (message : Str) (transport : UInt8) : Except Error Sink :=
  sendFramed conn (binaryHeader message ++ [transport]) message

def receiveFramed (headerSize : Nat) (conn : Stream) : Except Error ((Str × Str) × Stream) :=
  match readFull conn headerSize with
  | .error err => .error (.wrapped (lit "failed to read message length from net.Conn: ") err)
  | .ok (lenBuf, conn) =>
    match readFull conn (messageLength lenBuf) with
    | .error err => .error (.wrapped (lit "failed to read message from net.Conn: ") err)
    | .ok (messageBuf, conn) => .ok ((lenBuf, messageBuf), conn)

def receiveBinaryString (conn : Stream) : Except Error (Str × Stream) :=
  (receiveFramed 2 conn).map fun r => (r.1.2, r.2)

/-- `receiveBinaryTransportString` with what it leaves of the connection. -/
def nextBinaryTransportString (conn : Stream) : Except Error ((Str × UInt8) × Stream) :=
  (receiveFramed 3 conn).map fun r => ((r.1.2, r.1.1.getD 2 0), r.2)

theorem receiveBinaryTransportString_eq (conn : Stream) :
    receiveBinaryTransportString conn = (nextBinaryTransportString conn).map Prod.fst := by
  unfold receiveBinaryTransportString nextBinaryTransportString receiveFramed
  cases readFull conn 3 with
  | error err => rfl
  | ok r =>
    simp only
    cases readFull r.2 (messageLength r.1) <;> rfl

theorem messageLength_lt (lenBuf : Str) : messageLength lenBuf < 65536 := by
  have h₀ := (lenBuf.getD 0 0).toNat_lt
  have h₁ := (lenBuf.getD 1 0).toNat_lt
  unfold messageLength
  omega

theorem messageLength_binaryHeader (message rest : Str) :
    messageLength (binaryHeader message ++ rest) = message.length % 65536 := by
  rw [messageLength, ← toNat_be16, binaryHeader, be16_putUint16, UInt16.toNat_ofNat']

def binaryFrame (message : Str) : Str := binaryHeader message ++ message

def transportFrame (message : Str) (transport : UInt8) : Str := binaryHeader message ++ [transport] ++ message

theorem sendBinaryString_reliable (bytes message : Str) :
    sendBinaryString ⟨bytes, none⟩ message = .ok ⟨bytes ++ binaryFrame message, none⟩ := rfl

theorem receiveFramed_frame {header message : Str} (rest : Str) (ending : Error)
    (hlen : messageLength header = message.length) :
    receiveFramed header.length ⟨header ++ message ++ rest, ending⟩ = .ok ((header, message), ⟨rest, ending⟩) := by
  have h₁ : readFull ⟨header ++ message ++ rest, ending⟩ header.length =
      .ok (header, ⟨message ++ rest, ending⟩) := by
    rw [readFull_of_le (by simp), append_assoc, take_left, drop_left]
  have h₂ : readFull ⟨message ++ rest, ending⟩ (messageLength header) = .ok (message, ⟨rest, ending⟩) := by
    rw [hlen, readFull_of_le (by simp), take_left, drop_left]
  simp only [receiveFramed, h₁, h₂]

theorem receiveBinaryString_frame {message : Str} (rest : Str) (ending : Error) (h : message.length ≤ 65535) :
    receiveBinaryString ⟨binaryFrame message ++ rest, ending⟩ = .ok (message, ⟨rest, ending⟩) := by
  have hlen : messageLength (binaryHeader message) = message.length := by
    have := messageLength_binaryHeader message []
    rw [append_nil] at this
    omega
  have hr := receiveFramed_frame rest ending hlen
  rw [receiveBinaryString, binaryFrame, show 2 = (binaryHeader message).length from rfl, hr]
  rfl

theorem nextBinaryTransportString_frame {message : Str} (transport : UInt8) (rest : Str) (ending : Error)
    (h : message.length ≤ 65535) :
    nextBinaryTransportString ⟨transportFrame message transport ++ rest, ending⟩ =
      .ok ((message, transport), ⟨rest, ending⟩) := by
  have hlen : messageLength (binaryHeader message ++ [transport]) = message.length := by
    rw [messageLength_binaryHeader]
    omega
  have hr := receiveFramed_frame rest ending hlen
  rw [nextBinaryTransportString, transportFrame, show 3 = (binaryHeader message ++ [transport]).length from rfl, hr]
  rfl

theorem length_of_receiveFramed {β : Type} {n : Nat} {conn : Stream} {f : (Str × Str) × Stream → β} {b : β}
    (h : (receiveFramed n conn).map f = .ok b) : ∃ r, f r = b ∧ r.1.2.length ≤ 65535 := by
  unfold receiveFramed at h
  cases hr : readFull conn n with
  | error err =>
    rw [hr] at h
    cases h
  | ok r =>
    simp only [hr] at h
    have hlt := messageLength_lt r.1
    by_cases hle : messageLength r.1 ≤ r.2.bytes.length
    · rw [readFull_of_le hle] at h
      simp only [Except.map, Except.ok.injEq] at h
      refine ⟨_, h, ?_⟩
      rw [length_take]
      omega
    · obtain ⟨e, he, _⟩ := readFull_of_lt (not_le.mp hle)
      rw [he] at h
      cases h

theorem nextBinaryTransportString_header {message message' rest : Str} {transport transport' : UInt8}
    {ending : Error} {conn : Stream}
    (h : nextBinaryTransportString ⟨transportFrame message transport ++ rest, ending⟩ =
      .ok ((message', transport'), conn)) :
    message'.length = message.length % 65536 ∧ transport' = transport := by
  have hlen : 3 ≤ (transportFrame message transport ++ rest).length := by
    simp only [transportFrame, binaryHeader, length_append, length_putUint16, length_singleton]
    omega
  have hread : readFull ⟨transportFrame message transport ++ rest, ending⟩ 3 =
      .ok (binaryHeader message ++ [transport], ⟨message ++ rest, ending⟩) := by
    rw [readFull_of_le hlen]
    rfl
  simp only [nextBinaryTransportString, receiveFramed, hread, messageLength_binaryHeader] at h
  by_cases hle : message.length % 65536 ≤ (message ++ rest).length
  · rw [readFull_of_le hle] at h
    simp only [Except.map, Except.ok.injEq, Prod.mk.injEq] at h
    obtain ⟨⟨rfl, rfl⟩, rfl⟩ := h
    exact ⟨length_take_of_le hle, rfl⟩
  · obtain ⟨e, he, _⟩ := readFull_of_lt (s := ⟨message ++ rest, ending⟩) (not_le.mp hle)
    rw [he] at h
    cases h

end ArangeTun.Wire
