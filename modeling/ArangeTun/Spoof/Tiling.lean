import ArangeTun.Spoof.Lemmas.Fragments

/-! # Fragments tile the segment -/

namespace ArangeTun.Spoof

open Go Packet

/-- The ranges follow one another from `off` to the end of the segment, and each fits a packet and its header. -/
structure Tiling (segLen mtu off : Nat) (fs : List SpoofFragRange) : Prop where
  first : fs.head?.map SpoofFragRange.off = some off
  next : fs.IsChain fun f g => g.off = f.stop ∧ (f.stop - f.off) % 8 = 0 ∧ f.more = true
  last : fs.getLast?.map (fun f => (f.stop, f.more)) = some (segLen, false)
  fits : ∀ f ∈ fs, f.off ≤ f.stop ∧ ipv4HeaderLen + (f.stop - f.off) ≤ mtu
  offset : ∀ f ∈ fs, f.off % 8 = 0 ∧ f.off / 8 < 8192

theorem spoofFragments_tiling {segLen mtu : Nat} (hfit : ipv4HeaderLen + segLen ≤ 65535) (hmtu : 40 < mtu) :
    Tiling segLen mtu 0 (spoofFragments segLen mtu) := by
  have hsome : ipv4HeaderLen ≤ mtu := by
    rw [ipv4HeaderLen]
    omega
  have hfollow := @spoofFragments_follow segLen mtu (.inr hsome)
  have hroom : ipv4HeaderLen + rangeSize segLen mtu ≤ mtu := by
    unfold rangeSize
    rw [ipv4HeaderLen]
    split <;> omega
  rw [ipv4HeaderLen] at hfit
  refine ⟨hfollow.first, hfollow.next, hfollow.last, fun f hf => ?_, fun f hf => ?_⟩
  · obtain ⟨hle, hsize⟩ := hfollow.size f hf
    exact ⟨hle, by omega⟩
  · obtain ⟨h8, hle, hstop, -⟩ := hfollow.ranges.range f hf
    exact ⟨h8, by omega⟩

/-- The ranges tile the segment. From the packets that `sendIP` emits, in whatever order they arrive, the receiving
kernel puts the segment together again exactly if it is one packet or their identification is not zero. -/
theorem fragments_tile_and_reassemble (segLen mtu : Nat) (hfit : ipv4HeaderLen + segLen ≤ 65535) (hmtu : 40 < mtu) :
    Tiling segLen mtu 0 (spoofFragments segLen mtu) ∧
      ∀ (c : SpoofConn) (src : IPv4) (ipID : UInt32) (d : Draws) (shim : Str), c.mtu = mtu → shim.length = segLen →
        src ≠ .replicate 4 0 → ∀ (source : IPv4) (idents : Nat → UInt16),
          (∀ i j, i < j → j < (spoofFragments segLen mtu).length → idents i ≠ idents j) → ∀ received : List Str,
          received.Perm ((rawSend source idents (c.sendIP src ipID d shim)).map IPPacket.marshal) →
            ((handedUp (received.filterMap parseIPPacket)).map IPPacket.body = [shim] ↔
              ipv4HeaderLen + segLen ≤ mtu ∨ (ipID + 1).toUInt16 ≠ 0) := by
  refine ⟨spoofFragments_tiling hfit hmtu, ?_⟩
  rintro c src ipID d shim rfl rfl hsrc source idents hidents received hwire
  have hsome : 0 < shim.length ∨ ipv4HeaderLen ≤ c.mtu := .inr (by rw [ipv4HeaderLen]; omega)
  have hsent := fragments_parse c src _ d source idents hsome hfit hsrc hwire
  constructor
  · intro hbody
    by_contra hno
    obtain ⟨hmany, hid⟩ := not_or.mp hno
    rw [not_not] at hid
    rw [hid] at hsent
    have hlength : (c.fragments src 0 d shim).length = (spoofFragments shim.length c.mtu).length := List.length_map ..
    rw [← hlength] at hidents
    rw [handedUp_own_ids c src d source idents hsrc hmtu (not_le.mp hmany) hidents hsent] at hbody
    cases hbody
  · intro hone
    obtain ⟨id, hsame⟩ := rawSend_one_id c src _ d source idents hsrc hone
    rw [hsame] at hsent
    rw [handedUp_fragments c src id d hsome hsent]
    rfl

/-- A segment of 100 bytes over an mtu of 48 leaves in five packets. -/
theorem hundred_bytes_tiled :
    (spoofFragments 100 48).length = 5 ∧ Tiling 100 48 0 (spoofFragments 100 48) :=
  ⟨by decide, (fragments_tile_and_reassemble 100 48 (by decide) (by decide)).1⟩

def ipipConn : SpoofConn :=
  newSpoofConn false ⟨lit "secret", .ipip, .ipip, false, ⟨false, false, false, 0, 0, false, 0, false⟩⟩
    ⟨.replicate 4 2, [.replicate 4 9], .replicate 4 1, none, 48⟩

/-- The same segment under the identification zero: five packets under five identifications. -/
theorem hundred_bytes_apart :
    (rawSend (.replicate 4 1) (fun i => UInt16.ofNat (i + 1)) (ipipConn.sendIP (.replicate 4 9) 65535
        ⟨0, 0, 0, 0, fun _ => 0⟩ (List.replicate 100 0))).map (·.header.id) = [1, 2, 3, 4, 5] ∧
      handedUp (rawSend (.replicate 4 1) (fun i => UInt16.ofNat (i + 1)) (ipipConn.sendIP (.replicate 4 9) 65535
        ⟨0, 0, 0, 0, fun _ => 0⟩ (List.replicate 100 0))) = [] := by decide +kernel

end ArangeTun.Spoof
