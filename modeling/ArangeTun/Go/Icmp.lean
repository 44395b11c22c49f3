import ArangeTun.Go.Binary

/-!
# ICMP echo messages

`Message.Marshal` and `ParseMessage` of golang.org/x/net/icmp for IPv4, and the header that a raw socket strips. The
parsers of bodies other than echo are left out: such a body is `other`.
-/

namespace Go.Icmp

structure Echo where
  id : UInt16
  seq : UInt16
  data : Str
  deriving DecidableEq

inductive Body
  | echo (e : Echo)
  | other (b : Str)
  deriving DecidableEq

structure Message where
  typ : UInt8
  code : UInt8
  checksum : UInt16
  body : Body
  deriving DecidableEq

def echoRequest : UInt8 := 8

def echoReply : UInt8 := 0

def wordSum : Str → UInt32
  | lo :: hi :: rest => ((hi.toUInt32 <<< 8) ||| lo.toUInt32) + wordSum rest
  | [lo] => lo.toUInt32
  | [] => 0

def checksum (b : Str) : UInt16 :=
  let s := wordSum b
  let s := (s >>> 16) + (s &&& 0xffff)
  let s := s + (s >>> 16)
  ~~~ s.toUInt16

def Echo.marshal (e : Echo) : Str := putUint16 e.id ++ putUint16 e.seq ++ e.data

def marshal (typ code : UInt8) (e : Echo) : Str :=
  let s := checksum ([typ, code, 0, 0] ++ e.marshal)
  [typ, code, s.toUInt8, (s >>> 8).toUInt8] ++ e.marshal

def parseEcho (b : Str) : Option Echo :=
  if b.length < 4 then none else some ⟨be16 b 0, be16 b 2, b.drop 4⟩

def parseMessage (b : Str) : Option Message :=
  if b.length < 4 then none
  else
    let typ := b.getD 0 0
    let code := b.getD 1 0
    if typ = echoRequest ∨ typ = echoReply then
      (parseEcho (b.drop 4)).map fun e => ⟨typ, code, be16 b 2, .echo e⟩
    else some ⟨typ, code, be16 b 2, .other (b.drop 4)⟩

/-- The bytes that `IPConn.ReadFrom` leaves of those read into a buffer of `size` bytes. -/
def stripIPv4Header (size : Nat) (b : Str) : Str :=
  if size < 20 then b
  else
    let l := 4 * ((b.getD 0 0).toNat % 16)
    if 20 > l ∨ l > size then b
    else if (b.getD 0 0).toNat / 16 ≠ 4 then b
    else b.drop l

/-- An IPv4 header, as far as the socket looks at it. -/
structure IsIPv4Header (header : Str) : Prop where
  min : 20 ≤ header.length
  max : header.length ≤ 60
  first : (header.getD 0 0).toNat = 64 + header.length / 4
  words : header.length % 4 = 0

instance (header : Str) : Decidable (IsIPv4Header header) :=
  decidable_of_iff (20 ≤ header.length ∧ header.length ≤ 60 ∧
      (header.getD 0 0).toNat = 64 + header.length / 4 ∧ header.length % 4 = 0)
    ⟨fun ⟨h₁, h₂, h₃, h₄⟩ => ⟨h₁, h₂, h₃, h₄⟩, fun ⟨h₁, h₂, h₃, h₄⟩ => ⟨h₁, h₂, h₃, h₄⟩⟩

theorem stripIPv4Header_of_isIPv4Header {header b : Str} {size : Nat} (h : IsIPv4Header header) (hsize : 60 ≤ size) :
    stripIPv4Header size ((header ++ b).take size) = b.take (size - header.length) := by
  obtain ⟨hmin, hmax, hfirst, hwords⟩ := h
  have hlead : ((header ++ b).take size).getD 0 0 = header.getD 0 0 := by
    rw [getD_take (by omega), getD_append_left _ (by omega)]
  rw [stripIPv4Header, if_neg (by omega), hlead, hfirst]
  rw [if_neg (by omega), if_neg (by omega), show 4 * ((64 + header.length / 4) % 16) = header.length by omega]
  rw [List.take_append, List.take_of_length_le (by omega), List.drop_left]

theorem parseMessage_echo_iff {b : Str} {m : Message} {e : Echo} :
    parseMessage b = some m ∧ m.body = .echo e ↔
      8 ≤ b.length ∧ (b.getD 0 0 = echoRequest ∨ b.getD 0 0 = echoReply) ∧
        m = ⟨b.getD 0 0, b.getD 1 0, be16 b 2, .echo e⟩ ∧ e = ⟨be16 b 4, be16 b 6, b.drop 8⟩ := by
  have hbody : parseEcho (b.drop 4) = if b.length < 8 then none else some ⟨be16 b 4, be16 b 6, b.drop 8⟩ := by
    simp only [parseEcho, List.length_drop, be16_drop, List.drop_drop]
    by_cases h : b.length < 8
    · rw [if_pos (by omega), if_pos h]
    · rw [if_neg (by omega), if_neg h]
  simp only [parseMessage, hbody]
  constructor
  · rintro ⟨h, he⟩
    by_cases hshort : b.length < 4
    · rw [if_pos hshort] at h
      cases h
    · rw [if_neg hshort] at h
      by_cases htyp : b.getD 0 0 = echoRequest ∨ b.getD 0 0 = echoReply
      · rw [if_pos htyp] at h
        by_cases hlen : b.length < 8
        · rw [if_pos hlen] at h
          cases h
        · rw [if_neg hlen] at h
          obtain rfl := Option.some.inj h
          cases he
          exact ⟨Nat.not_lt.mp hlen, htyp, rfl, rfl⟩
      · rw [if_neg htyp] at h
        obtain rfl := Option.some.inj h
        cases he
  · rintro ⟨hlen, htyp, rfl, rfl⟩
    rw [if_neg (by omega), if_pos htyp, if_neg (Nat.not_lt.mpr hlen)]
    exact ⟨rfl, rfl⟩

theorem parseMessage_take {b : Str} {n : Nat} {m : Message} {e : Echo} (h : parseMessage (b.take n) = some m)
    (he : m.body = .echo e) :
    ∃ m' e', parseMessage b = some m' ∧ m'.body = .echo e' ∧ e.data = e'.data.take (n - 8) := by
  obtain ⟨hlen, htyp, -, rfl⟩ := parseMessage_echo_iff.mp ⟨h, he⟩
  rw [List.length_take] at hlen
  have hfirst : (b.take n).getD 0 0 = b.getD 0 0 := getD_take (by omega)
  rw [hfirst] at htyp
  obtain ⟨hm, hb⟩ := parseMessage_echo_iff.mpr ⟨show 8 ≤ b.length by omega, htyp, rfl, rfl⟩
  exact ⟨_, _, hm, hb, by rw [List.drop_take]⟩

theorem parseMessage_marshal {typ code : UInt8} {e e' : Echo} {m : Message}
    (h : parseMessage (marshal typ code e) = some m) (he : m.body = .echo e') : e' = e := by
  obtain ⟨-, -, -, rfl⟩ := parseMessage_echo_iff.mp ⟨h, he⟩
  have hid : be16 (marshal typ code e) 4 = e.id := be16_putUint16 e.id ((marshal typ code e).drop 6)
  have hseq : be16 (marshal typ code e) 6 = e.seq := be16_putUint16 e.seq ((marshal typ code e).drop 8)
  rw [hid, hseq]
  rfl

end Go.Icmp
