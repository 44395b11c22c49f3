import ArangeTun.Socks.Model

/-!
# Headers of SOCKS5 datagrams

`parseUDPDatagram` of internal/socks/udpassociate.go.
-/

namespace ArangeTun.Socks

open Go List Option

structure Datagram where
  host : Str
  port : Nat
  data : Str
  header : Str
  deriving DecidableEq

section

-- `net.IP.String`
variable (ipString : Str → Str)

def parsePort (b host : Str) (pos : Nat) : Option (Option Datagram) := do
  let port ← uint16At b pos
  let header ← slice b 0 (pos + 2)
  let data ← slice b (pos + 2) b.length
  return some ⟨host, port.toNat, data, header⟩

def parseIPAddr (b : Str) (n : Nat) : Option (Option Datagram) :=
  if b.length < 4 + n + 2 then some none
  else (slice b 4 (4 + n)).bind fun ip => parsePort b (ipString ip) (4 + n)

def parseHostAddr (b : Str) : Option (Option Datagram) :=
  if b.length < 4 + 1 then some none
  else b[4]?.bind fun l =>
    if b.length < 5 + l.toNat + 2 then some none
    else (slice b 5 (5 + l.toNat)).bind fun host => parsePort b host (5 + l.toNat)

def parseUDPDatagram (b : Str) : Option (Option Datagram) :=
  if b.length < 4 then some none
  else b[2]?.bind fun frag =>
    if frag ≠ 0x00 then some none
    else b[3]?.bind fun atyp =>
      if atyp = atypIPv4 then parseIPAddr ipString b 4
      else if atyp = atypIPv6 then parseIPAddr ipString b 16
      else if atyp = atypHost then parseHostAddr b
      else some none

end

/-! ## The encoding -/

inductive Address
  | ipv4 (ip : Str) (length : ip.length = 4)
  | ipv6 (ip : Str) (length : ip.length = 16)
  | name (host : Str) (length : host.length < 256)

namespace Address

def atyp : Address → UInt8
  | ipv4 .. => atypIPv4
  | ipv6 .. => atypIPv6
  | name .. => atypHost

def bytes : Address → Str
  | ipv4 ip _ => ip
  | ipv6 ip _ => ip
  | name host _ => UInt8.ofNat host.length :: host

def host (ipString : Str → Str) : Address → Str
  | ipv4 ip _ => ipString ip
  | ipv6 ip _ => ipString ip
  | name host _ => host

end Address

def udpHeader (rsv₀ rsv₁ : UInt8) (a : Address) (port : UInt16) : Str :=
  [rsv₀, rsv₁, 0x00, a.atyp] ++ (a.bytes ++ putUint16 port)

/-! ## What a datagram asks for -/

def addressLength (b : Str) : Option Nat :=
  if b.getD 3 0 = atypIPv4 then some 4
  else if b.getD 3 0 = atypIPv6 then some 16
  else if b.getD 3 0 = atypHost then some (1 + (b.getD 4 0).toNat)
  else none

def Malformed (b : Str) : Prop :=
  b.length < 4 ∨ b.getD 2 0 ≠ 0 ∨ ∀ n, addressLength b = some n → b.length < 4 + n + 2

section

variable {ipString : Str → Str} {b : Str}

theorem parsePort_eq {pos : Nat} (host : Str) (h : pos + 2 ≤ b.length) :
    parsePort b host pos = some (some ⟨host, (be16 b pos).toNat, b.drop (pos + 2), b.take (pos + 2)⟩) := by
  simp [parsePort, uint16At_of_le h, slice_of_le (Nat.zero_le _) h, slice_to_end h]

def hostAt (ipString : Str → Str) (b : Str) (n : Nat) : Str :=
  if b.getD 3 0 = atypHost then (b.take (4 + n)).drop 5 else ipString ((b.take (4 + n)).drop 4)

def datagramAt (ipString : Str → Str) (b : Str) (n : Nat) : Datagram :=
  ⟨hostAt ipString b n, (be16 b (4 + n)).toNat, b.drop (4 + n + 2), b.take (4 + n + 2)⟩

theorem parseIPAddr_eq {n : Nat} (h : b.getD 3 0 ≠ atypHost) :
    parseIPAddr ipString b n = some (if b.length < 4 + n + 2 then none else some (datagramAt ipString b n)) := by
  unfold parseIPAddr
  split
  · rfl
  · rw [slice_of_le (by omega) (by omega), bind_some, parsePort_eq _ (by omega), datagramAt, hostAt, if_neg h]

theorem parseHostAddr_eq (h : b.getD 3 0 = atypHost) :
    parseHostAddr b = some (if b.length < 4 + (1 + (b.getD 4 0).toNat) + 2 then none
      else some (datagramAt ipString b (1 + (b.getD 4 0).toNat))) := by
  unfold parseHostAddr
  have hpos : 5 + (b.getD 4 0).toNat = 4 + (1 + (b.getD 4 0).toNat) := by omega
  split
  · rw [if_pos (by omega)]
  · rw [getElem?_of_lt (by omega), bind_some, hpos]
    split
    · rfl
    · rw [slice_of_le (by omega) (by omega), bind_some, parsePort_eq _ (by omega), datagramAt, hostAt, if_pos h]

theorem parseUDPDatagram_cases (ipString : Str → Str) (b : Str) :
    (parseUDPDatagram ipString b = some none ∧ Malformed b) ∨
      ∃ n, addressLength b = some n ∧ 4 + n + 2 ≤ b.length ∧ b.getD 2 0 = 0 ∧
        parseUDPDatagram ipString b = some (some (datagramAt ipString b n)) := by
  unfold parseUDPDatagram
  by_cases hshort : b.length < 4
  · exact .inl ⟨if_pos hshort, .inl hshort⟩
  rw [if_neg hshort, getElem?_of_lt (by omega), bind_some]
  by_cases hfrag : b.getD 2 0 = 0
  case neg => exact .inl ⟨if_pos hfrag, .inr (.inl hfrag)⟩
  rw [if_neg (not_not.mpr hfrag), getElem?_of_lt (by omega), bind_some]
  -- with the length of the address, what is left is a comparison of lengths
  suffices h : ∀ n, addressLength b = some n →
      (some (if b.length < 4 + n + 2 then none else some (datagramAt ipString b n)) = some none ∧ Malformed b) ∨
        ∃ m, addressLength b = some m ∧ 4 + m + 2 ≤ b.length ∧ b.getD 2 0 = 0 ∧
          some (if b.length < 4 + n + 2 then none else some (datagramAt ipString b n)) =
            some (some (datagramAt ipString b m)) by
    split
    · rename_i hipv4
      rw [parseIPAddr_eq (hipv4 ▸ by decide)]
      exact h 4 (if_pos hipv4)
    · rename_i hipv4
      split
      · rename_i hipv6
        rw [parseIPAddr_eq (hipv6 ▸ by decide)]
        exact h 16 ((if_neg hipv4).trans (if_pos hipv6))
      · rename_i hipv6
        split
        · rename_i hhost
          rw [parseHostAddr_eq hhost]
          exact h _ ((if_neg hipv4).trans ((if_neg hipv6).trans (if_pos hhost)))
        · rename_i hhost
          have hunknown : addressLength b = none :=
            (if_neg hipv4).trans ((if_neg hipv6).trans (if_neg hhost))
          exact .inl ⟨rfl, .inr (.inr fun n hn => by rw [hunknown] at hn; cases hn)⟩
  intro n hn
  by_cases hroom : b.length < 4 + n + 2
  · rw [if_pos hroom]
    refine .inl ⟨rfl, .inr (.inr fun m hm => ?_)⟩
    rw [hn] at hm
    cases hm
    exact hroom
  · rw [if_neg hroom]
    exact .inr ⟨n, hn, by omega, hfrag, rfl⟩

theorem exists_address {n : Nat} (ipString : Str → Str) (hn : addressLength b = some n) (hlen : 4 + n ≤ b.length) :
    ∃ a : Address, a.atyp = b.getD 3 0 ∧ a.bytes = (b.drop 4).take n ∧ a.host ipString = hostAt ipString b n := by
  have htake : (b.drop 4).take n = (b.take (4 + n)).drop 4 := by
    rw [drop_take, Nat.add_sub_cancel_left]
  have hlength : ((b.drop 4).take n).length = n := by
    rw [length_take, length_drop]
    omega
  unfold addressLength at hn
  split at hn
  · rename_i hipv4
    cases hn
    refine ⟨.ipv4 _ hlength, hipv4.symm, rfl, ?_⟩
    rw [hostAt, if_neg (hipv4 ▸ by decide), ← htake]
    rfl
  · split at hn
    · rename_i hipv6
      cases hn
      refine ⟨.ipv6 _ hlength, hipv6.symm, rfl, ?_⟩
      rw [hostAt, if_neg (hipv6 ▸ by decide), ← htake]
      rfl
    · split at hn
      · rename_i hhost
        cases hn
        have hname : ((b.drop 5).take (b.getD 4 0).toNat).length = (b.getD 4 0).toNat := by
          rw [length_take, length_drop]
          omega
        have hbytes : (b.drop 4).take (1 + (b.getD 4 0).toNat) = b.getD 4 0 :: (b.drop 5).take (b.getD 4 0).toNat := by
          rw [drop_eq_getElem_cons (by omega), Nat.add_comm, take_succ_cons, getD_eq_getElem?_getD,
            getElem?_eq_getElem (by omega), getD_some]
        refine ⟨.name _ (hname ▸ (b.getD 4 0).toNat_lt), hhost.symm, ?_, ?_⟩
        · rw [hbytes, Address.bytes, hname, UInt8.ofNat_toNat]
        · rw [hostAt, if_pos hhost, drop_take, show 4 + (1 + (b.getD 4 0).toNat) - 5 = (b.getD 4 0).toNat by omega]
          rfl
      · cases hn

theorem exists_header {n : Nat} (ipString : Str → Str) (hn : addressLength b = some n) (hlen : 4 + n + 2 ≤ b.length)
    (hfrag : b.getD 2 0 = 0) :
    ∃ rsv₀ rsv₁ a, b.take (4 + n + 2) = udpHeader rsv₀ rsv₁ a (be16 b (4 + n)) ∧
      a.host ipString = hostAt ipString b n := by
  obtain ⟨a, hatyp, hbytes, hhost⟩ := exists_address ipString hn (by omega)
  have hhead : b.take 4 = [b.getD 0 0, b.getD 1 0, 0, a.atyp] := by
    match b, hlen with
    | b₀ :: b₁ :: b₂ :: b₃ :: rest, _ =>
      simp only [getD_cons_succ, getD_cons_zero] at hfrag hatyp ⊢
      rw [hatyp, hfrag]
      rfl
    | [], hlen | [_], hlen | [_, _], hlen | [_, _, _], hlen =>
      simp only [length_cons, length_nil] at hlen
      omega
  have hport : putUint16 (be16 b (4 + n)) = (b.drop (4 + n)).take 2 := by
    rw [← putUint16_be16 (by rw [length_drop]; omega), be16_drop, Nat.add_zero]
  refine ⟨b.getD 0 0, b.getD 1 0, a, ?_, hhost⟩
  rw [udpHeader, ← hhead, hbytes, hport, take_add, take_add, append_assoc]

end

/-- Every datagram is parsed without an access out of range, and exactly the malformed ones are refused. -/
theorem udp_datagrams_parsed (ipString : Str → Str) (b : Str) :
    ∃ r, parseUDPDatagram ipString b = some r ∧
      (∀ d, r = some d → d.header ++ d.data = b ∧
        (∃ n, addressLength b = some n ∧ d.header.length = 4 + n + 2) ∧
        ∃ rsv₀ rsv₁ a port, d.header = udpHeader rsv₀ rsv₁ a port ∧ d.host = a.host ipString ∧ d.port = port.toNat) ∧
      (r = none ↔ Malformed b) := by
  rcases parseUDPDatagram_cases ipString b with ⟨hparse, hmalformed⟩ | ⟨n, hn, hlen, hfrag, hparse⟩
  · exact ⟨none, hparse, nofun, iff_of_true rfl hmalformed⟩
  · refine ⟨_, hparse, ?_, iff_of_false nofun ?_⟩
    · rintro d ⟨⟩
      obtain ⟨rsv₀, rsv₁, a, hheader, hhost⟩ := exists_header ipString hn hlen hfrag
      refine ⟨take_append_drop _ b, ⟨n, hn, length_take_of_le hlen⟩, ?_⟩
      exact ⟨rsv₀, rsv₁, a, _, hheader, hhost.symm, rfl⟩
    · rintro (hshort | hne | hroom)
      · omega
      · exact hne hfrag
      · have := hroom n hn
        omega

end ArangeTun.Socks
