import ArangeTun.Wire.Frame

/-! # Sequences of framed strings -/

namespace ArangeTun.Wire

open Go

/-- Every send succeeds on a connection that does not fail, and as many receives on the other end give the
same messages in order and leave nothing. -/
def Synchronised {α : Type} (send : Sink → α → Except Error Sink) (receive : Stream → Except Error (α × Stream))
    (messages : List α) : Prop :=
  ∃ conn, messages.foldlM send ⟨[], none⟩ = .ok conn ∧
    ∀ ending, readMany receive messages.length ⟨conn.bytes, ending⟩ = .ok (messages, ⟨[], ending⟩)

def BinaryStringsSynchronised : List Str → Prop := Synchronised sendBinaryString receiveBinaryString

def BinaryTransportStringsSynchronised : List (Str × UInt8) → Prop :=
  Synchronised (fun conn m => sendBinaryTransportString conn m.1 m.2) nextBinaryTransportString

section

variable {α : Type} {send : Sink → α → Except Error Sink} {receive : Stream → Except Error (α × Stream)}
  {f : α → Str} {Fits : α → Prop}

theorem synchronised_iff (hsend : ∀ bytes a, send ⟨bytes, none⟩ a = .ok ⟨bytes ++ f a, none⟩)
    (hread : ∀ ending a rest, Fits a → receive ⟨f a ++ rest, ending⟩ = .ok (a, ⟨rest, ending⟩))
    (hfits : ∀ ending a rest s', receive ⟨f a ++ rest, ending⟩ = .ok (a, s') → Fits a) (messages : List α) :
    Synchronised send receive messages ↔ ∀ m ∈ messages, Fits m := by
  have hall := foldlM_write hsend [] messages
  rw [List.nil_append] at hall
  constructor
  · rintro ⟨conn, hconn, hrecv⟩
    rw [hall] at hconn
    cases hconn
    exact (readMany_flatMap_iff messages (hread .eof) (hfits .eof)).mp (hrecv .eof)
  · intro h
    exact ⟨_, hall, fun ending => (readMany_flatMap_iff messages (hread ending) (hfits ending)).mpr h⟩

end

theorem binaryStringsSynchronised_iff (messages : List Str) :
    BinaryStringsSynchronised messages ↔ ∀ m ∈ messages, m.length ≤ 65535 := by
  apply synchronised_iff (f := binaryFrame)
  · exact sendBinaryString_reliable
  · intro ending m rest hm
    exact receiveBinaryString_frame rest ending hm
  · intro ending m rest s' h
    obtain ⟨r, hr, hle⟩ := length_of_receiveFramed h
    cases hr
    exact hle

theorem binaryTransportStringsSynchronised_iff (messages : List (Str × UInt8)) :
    BinaryTransportStringsSynchronised messages ↔ ∀ m ∈ messages, m.1.length ≤ 65535 := by
  apply synchronised_iff (f := fun m : Str × UInt8 => transportFrame m.1 m.2)
  · intro bytes m
    rfl
  · intro ending m rest hm
    exact nextBinaryTransportString_frame m.2 rest ending hm
  · intro ending m rest s' h
    obtain ⟨r, hr, hle⟩ := length_of_receiveFramed h
    cases hr
    exact hle

/-- The strings arrive as they were sent, and leave nothing behind, exactly when the length of each fits the
header. -/
theorem strings_synchronised_iff_lengths_fit (messages : List Str) (framed : List (Str × UInt8)) :
    (BinaryStringsSynchronised messages ↔ ∀ m ∈ messages, m.length ≤ 65535) ∧
      (BinaryTransportStringsSynchronised framed ↔ ∀ m ∈ framed, m.1.length ≤ 65535) :=
  ⟨binaryStringsSynchronised_iff messages, binaryTransportStringsSynchronised_iff framed⟩

theorem length_65536_wraps {message : Str} (h : message.length = 65536) (ending : Error) :
    sendBinaryString ⟨[], none⟩ message = .ok ⟨binaryFrame message, none⟩ ∧
      receiveBinaryString ⟨binaryFrame message, ending⟩ = .ok ([], ⟨message, ending⟩) := by
  refine ⟨sendBinaryString_reliable [] message, ?_⟩
  have hheader : binaryHeader message = binaryHeader [] := by
    rw [binaryHeader, h]
    rfl
  have hframe : binaryFrame message = binaryFrame [] ++ message := by
    rw [binaryFrame, binaryFrame, hheader, List.append_nil]
  rw [hframe]
  exact receiveBinaryString_frame message ending (Nat.zero_le _)

/-- A message of 65536 bytes is sent without an error, and the next receive returns the empty string. -/
theorem long_string_desynchronises :
    (sendBinaryString ⟨[], none⟩ (List.replicate 65536 0) = .ok ⟨binaryFrame (List.replicate 65536 0), none⟩ ∧
      receiveBinaryString ⟨binaryFrame (List.replicate 65536 0), .eof⟩ =
        .ok ([], ⟨List.replicate 65536 0, .eof⟩)) ∧
    ¬ BinaryStringsSynchronised [List.replicate 65536 0, lit "next"] ∧
    ¬ BinaryTransportStringsSynchronised [(List.replicate 65536 0, 1), (lit "next", 2)] := by
  refine ⟨length_65536_wraps List.length_replicate .eof, ?_, ?_⟩
  · rw [binaryStringsSynchronised_iff]
    intro h
    have := h _ (List.mem_cons_self ..)
    rw [List.length_replicate] at this
    omega
  · rw [binaryTransportStringsSynchronised_iff]
    intro h
    have := h _ (List.mem_cons_self ..)
    rw [List.length_replicate] at this
    omega

end ArangeTun.Wire
