import ArangeTun.Spoof.Kernel

/-! # Fragments -/

namespace ArangeTun.Spoof

open Go Packet List Option

/-! ## `spoofFragments` -/

/-- The ranges follow one another from `off` to the end of the segment, with at most `size` bytes each. -/
structure Follow (segLen size off : Nat) (fs : List SpoofFragRange) : Prop where
  first : fs.head?.map SpoofFragRange.off = some off
  next : fs.IsChain fun f g => g.off = f.stop ∧ (f.stop - f.off) % 8 = 0 ∧ f.more = true
  last : fs.getLast?.map (fun f => (f.stop, f.more)) = some (segLen, false)
  size : ∀ f ∈ fs, f.off ≤ f.stop ∧ f.stop - f.off ≤ size
  aligned : ∀ f ∈ fs, f.off % 8 = 0

section

variable {segLen size off : Nat} {f g : SpoofFragRange} {fs : List SpoofFragRange}

theorem Follow.single (hoff : off ≤ segLen) (hsize : segLen - off ≤ size) (h8 : off % 8 = 0) :
    Follow segLen size off [⟨off, segLen, false⟩] :=
  ⟨rfl, .singleton _, rfl, forall_mem_singleton.mpr ⟨hoff, hsize⟩, forall_mem_singleton.mpr h8⟩

theorem Follow.cons {stop : Nat} (h : Follow segLen size stop fs) (hstop : off ≤ stop) (hsize : stop - off ≤ size)
    (hlen : (stop - off) % 8 = 0) (h8 : off % 8 = 0) : Follow segLen size off (⟨off, stop, true⟩ :: fs) := by
  obtain ⟨hfirst, hnext, hlast, hsizes, haligned⟩ := h
  cases fs with
  | nil => simp at hfirst
  | cons f fs =>
    simp only [head?_cons, Option.map_some, Option.some.injEq] at hfirst
    refine ⟨rfl, .cons_cons ⟨hfirst, hlen, rfl⟩ hnext, by simpa using hlast, ?_, ?_⟩
    · exact forall_mem_cons.mpr ⟨⟨hstop, hsize⟩, hsizes⟩
    · exact forall_mem_cons.mpr ⟨h8, haligned⟩

theorem Follow.tail (h : Follow segLen size off (f :: g :: fs)) :
    f.off = off ∧ f.more = true ∧ g.off = f.stop ∧ Follow segLen size f.stop (g :: fs) := by
  obtain ⟨hfirst, hnext, hlast, hsizes, haligned⟩ := h
  obtain ⟨⟨hoff, -, hmore⟩, hrest⟩ := isChain_cons_cons.mp hnext
  refine ⟨by simpa using hfirst, hmore, hoff, by simp [hoff], hrest, by simpa using hlast, ?_, ?_⟩
  · exact (forall_mem_cons.mp hsizes).2
  · exact (forall_mem_cons.mp haligned).2

/-- The ranges cover the segment from `off` on. -/
structure Ranges (segLen off : Nat) (fs : List SpoofFragRange) : Prop where
  range : ∀ f ∈ fs, f.off % 8 = 0 ∧ f.off ≤ f.stop ∧ f.stop ≤ segLen ∧ (f.more = false → f.stop = segLen)
  covers : ∀ i, off ≤ i → i < segLen → ∃ f ∈ fs, f.off ≤ i ∧ i < f.stop

theorem Follow.ranges (h : Follow segLen size off fs) : Ranges segLen off fs := by
  induction fs generalizing off with
  | nil => cases h.first
  | cons f fs ih =>
    obtain ⟨⟨hle, -⟩, -⟩ := forall_mem_cons.mp h.size
    obtain ⟨h8, -⟩ := forall_mem_cons.mp h.aligned
    cases fs with
    | nil =>
      have hoff : f.off = off := by simpa using h.first
      obtain ⟨hstop, -⟩ : f.stop = segLen ∧ f.more = false := by simpa using h.last
      refine ⟨forall_mem_cons.mpr ⟨⟨h8, hle, hstop.le, fun _ => hstop⟩, forall_mem_nil _⟩, fun i hi hlt => ?_⟩
      exact ⟨f, mem_singleton_self f, by omega⟩
    | cons g fs =>
      obtain ⟨hoff, hmore, hg, hrest⟩ := h.tail
      have hr := ih hrest
      obtain ⟨⟨-, hgle, hgstop, -⟩, -⟩ := forall_mem_cons.mp hr.range
      refine ⟨forall_mem_cons.mpr ⟨⟨h8, hle, by omega, fun hno => ?_⟩, hr.range⟩, fun i hi hlt => ?_⟩
      · rw [hmore] at hno
        cases hno
      · by_cases hin : i < f.stop
        · exact ⟨f, mem_cons_self .., by omega⟩
        · obtain ⟨q, hq, hcov⟩ := hr.covers i (by omega) hlt
          exact ⟨q, mem_cons_of_mem _ hq, hcov⟩

end

theorem fragmentsFrom_follow {segLen maxData : Nat} (hpos : 0 < maxData) (h8 : maxData % 8 = 0) (turns off : Nat)
    (hoff : off % 8 = 0) (hlt : off < segLen) (hturns : segLen ≤ turns + off) :
    Follow segLen maxData off (fragmentsFrom segLen maxData turns off) := by
  induction turns generalizing off with
  | zero => omega
  | succ turns ih =>
    rw [fragmentsFrom, if_pos hlt]
    by_cases hmore : off + maxData < segLen
    · simp only [if_neg (show ¬ off + maxData > segLen by omega), hmore, decide_true]
      exact (ih (off + maxData) (by omega) hmore (by omega)).cons (by omega) (by omega) (by omega) hoff
    · have hstop : (if off + maxData > segLen then segLen else off + maxData) = segLen := by
        split <;> omega
      have hrest : fragmentsFrom segLen maxData turns (off + maxData) = [] := by
        cases turns with
        | zero => rfl
        | succ turns => rw [fragmentsFrom, if_neg hmore]
      simp only [hstop, hrest, lt_irrefl, decide_false]
      exact .single hlt.le (by omega) hoff

/-- The most bytes that a range of `spoofFragments` has. -/
def rangeSize (segLen mtu : Nat) : Nat :=
  if ipv4HeaderLen + segLen ≤ mtu then segLen else max ((mtu - ipv4HeaderLen) / 8 * 8) 8

theorem spoofFragments_follow {segLen mtu : Nat} (h : 0 < segLen ∨ ipv4HeaderLen ≤ mtu) :
    Follow segLen (rangeSize segLen mtu) 0 (spoofFragments segLen mtu) := by
  unfold spoofFragments rangeSize
  split
  · exact .single (Nat.zero_le _) le_rfl rfl
  · rename_i hmany
    have hmax : (if (mtu - ipv4HeaderLen) / 8 * 8 = 0 then 8 else (mtu - ipv4HeaderLen) / 8 * 8) =
        max ((mtu - ipv4HeaderLen) / 8 * 8) 8 := by
      split <;> omega
    simp only [hmax]
    exact fragmentsFrom_follow (by omega) (by omega) segLen 0 rfl (by omega) (by omega)

theorem spoofFragments_ranges {segLen mtu : Nat} (h : 0 < segLen ∨ ipv4HeaderLen ≤ mtu) :
    Ranges segLen 0 (spoofFragments segLen mtu) := (spoofFragments_follow h).ranges

theorem Follow.exists_last {segLen size off : Nat} {fs : List SpoofFragRange} (h : Follow segLen size off fs) :
    ∃ f ∈ fs, f.more = false := by
  obtain ⟨f, hf, hlast⟩ := Option.map_eq_some_iff.mp h.last
  exact ⟨f, mem_of_getLast? hf, (Prod.mk.inj hlast).2⟩

theorem Follow.exists_first {segLen size off : Nat} {fs : List SpoofFragRange} (h : Follow segLen size off fs) :
    ∃ f ∈ fs, f.off = off := by
  obtain ⟨f, hf, hfirst⟩ := Option.map_eq_some_iff.mp h.first
  exact ⟨f, mem_of_head? hf, hfirst⟩

/-! ## The wire format -/

theorem addressAt_append (pre rest : Str) (v : IPv4) : addressAt (pre ++ (v.toList ++ rest)) pre.length = v := by
  obtain ⟨a, b, c, d, rfl⟩ : ∃ a b c d, v = #v[a, b, c, d] := by
    refine ⟨v[0], v[1], v[2], v[3], ?_⟩
    ext i hi
    interval_cases i <;> rfl
  have h := getD_append_length pre ([a, b, c, d] ++ rest)
  have h₀ := h 0
  rw [Nat.add_zero] at h₀
  show #v[(pre ++ ([a, b, c, d] ++ rest)).getD pre.length 0, (pre ++ ([a, b, c, d] ++ rest)).getD (pre.length + 1) 0,
    (pre ++ ([a, b, c, d] ++ rest)).getD (pre.length + 2) 0, (pre ++ ([a, b, c, d] ++ rest)).getD (pre.length + 3) 0] = _
  rw [h₀, h 1, h 2, h 3]
  rfl

@[simp] theorem Header.length_start (h : Header) : h.start.length = 10 := by simp [Header.start]

@[simp] theorem Header.length_marshal (h : Header) : h.marshal.length = 20 := by
  simp [Header.marshal, Header.addresses]

structure IPPacket.WellFormed (p : IPPacket) : Prop where
  total : p.header.totalLen = ipv4HeaderLen + p.body.length
  fits : p.header.totalLen ≤ 65535
  offset : p.header.fragOff < 8192

section

variable (p : IPPacket)

theorem addressAt_marshal :
    addressAt p.marshal 12 = p.header.src ∧ addressAt p.marshal 16 = p.header.dst := by
  have hcut (i : Nat) (pre : Str) (v : IPv4) (rest : Str) (h : p.marshal = pre ++ (v.toList ++ rest))
      (hi : pre.length = i) : addressAt p.marshal i = v := by
    rw [h, ← hi, addressAt_append]
  constructor
  · apply hcut 12 (p.header.start ++ putUint16 (onesComplement [p.header.start ++ putUint16 0 ++ p.header.addresses]))
      p.header.src (p.header.dst.toList ++ p.body)
    · simp [IPPacket.marshal, Header.marshal, Header.addresses]
    · simp
  · apply hcut 16 (p.header.start ++ putUint16 (onesComplement [p.header.start ++ putUint16 0 ++ p.header.addresses]) ++
      p.header.src.toList) p.header.dst p.body
    · simp [IPPacket.marshal, Header.marshal, Header.addresses]
    · simp

theorem flags_marshal (h : p.header.fragOff < 8192) :
    (be16 p.marshal 6).toNat % 8192 = p.header.fragOff ∧
      decide ((be16 p.marshal 6).toNat / 8192 % 2 = 1) = p.header.more := by
  have hfield : be16 p.marshal 6 = UInt16.ofNat (p.header.fragOff % 8192 + if p.header.more then 8192 else 0) :=
    be16_putUint16 _ (p.marshal.drop 8)
  rw [hfield, UInt16.toNat_ofNat']
  cases p.header.more with
  | false => simp; omega
  | true => simp; omega

theorem total_marshal (h : p.header.totalLen ≤ 65535) : (be16 p.marshal 2).toNat = p.header.totalLen := by
  have hfield : be16 p.marshal 2 = UInt16.ofNat p.header.totalLen := be16_putUint16 _ (p.marshal.drop 4)
  rw [hfield, UInt16.toNat_ofNat']
  omega

theorem first_marshal : p.marshal.getD 0 0 = 0x45 := rfl

theorem parseIPPacket_marshal (h : p.WellFormed) : parseIPPacket p.marshal = some p := by
  obtain ⟨htotal, hfits, hoffset⟩ := h
  have hlen : p.marshal.length = p.header.totalLen := by
    rw [htotal, IPPacket.marshal, length_append, Header.length_marshal, ipv4HeaderLen]
  have hihl : 4 * ((p.marshal.getD 0 0).toNat % 16) = 20 := by rw [first_marshal]; rfl
  have hversion : (p.marshal.getD 0 0).toNat / 16 = 4 := by rw [first_marshal]; rfl
  have hid : be16 p.marshal 4 = p.header.id := be16_putUint16 _ (p.marshal.drop 6)
  have hbody : (p.marshal.take p.header.totalLen).drop 20 = p.body := by
    rw [← hlen, take_length, IPPacket.marshal, drop_left' (Header.length_marshal _)]
  rw [ipv4HeaderLen] at htotal
  obtain ⟨hfrag, hmore⟩ := flags_marshal p hoffset
  obtain ⟨hsrc, hdst⟩ := addressAt_marshal p
  simp only [parseIPPacket, hihl, hversion, total_marshal p hfits, hid, hfrag, hmore, hsrc, hdst, hbody]
  rw [if_neg (by omega)]
  rfl

end

section

variable (c : SpoofConn) (src : IPv4) (id : UInt16) (d : Draws) {shim : Str}

def SpoofConn.fragment (shim : Str) (f : SpoofFragRange) : IPPacket :=
  { header :=
      { tos := c.dpi.pickDSCP d.dscp
        totalLen := ipv4HeaderLen + (f.stop - f.off)
        id := id
        more := f.more
        fragOff := f.off / 8
        ttl := c.dpi.pickTTL d.ttl
        protocol := c.sendProfile.ipProtocol
        src := src
        dst := c.realPeer }
    body := (shim.take f.stop).drop f.off }

/-- The packets of a segment, all under the identification `id`. -/
def SpoofConn.fragments (shim : Str) : List IPPacket :=
  (spoofFragments shim.length c.mtu).map (c.fragment src id d shim)

theorem sendIP_eq (ipID : UInt32) (shim : Str) :
    c.sendIP src ipID d shim = c.fragments src (ipID + 1).toUInt16 d shim := rfl

def SpoofConn.wholeHeader (len : Nat) : Header :=
  { tos := c.dpi.pickDSCP d.dscp
    totalLen := ipv4HeaderLen + len
    id := id
    more := false
    fragOff := 0
    ttl := c.dpi.pickTTL d.ttl
    protocol := c.sendProfile.ipProtocol
    src := src
    dst := c.realPeer }

theorem length_fragment {f : SpoofFragRange} (hstop : f.stop ≤ shim.length) :
    ((shim.take f.stop).drop f.off).length = f.stop - f.off := by
  rw [length_drop, length_take_of_le hstop]

section

variable (h : 0 < shim.length ∨ ipv4HeaderLen ≤ c.mtu)

include h

theorem fragment_wellFormed (hfit : ipv4HeaderLen + shim.length ≤ 65535) {f : SpoofFragRange}
    (hf : f ∈ spoofFragments shim.length c.mtu) : (c.fragment src id d shim f).WellFormed := by
  obtain ⟨_, hle, hstop, _⟩ := (spoofFragments_ranges h).range f hf
  rw [ipv4HeaderLen] at hfit
  refine ⟨?_, ?_, ?_⟩
  · simp only [SpoofConn.fragment, length_fragment hstop]
  · simp only [SpoofConn.fragment, ipv4HeaderLen]
    omega
  · simp only [SpoofConn.fragment]
    omega

theorem fragments_tiles : Tiles ((c.fragments src id d shim).map IPPacket.piece) shim := by
  have hr := spoofFragments_ranges h
  have hpiece : (c.fragments src id d shim).map IPPacket.piece = (spoofFragments shim.length c.mtu).map
      fun f => ⟨8 * (f.off / 8), (shim.take f.stop).drop f.off, f.more⟩ := by
    rw [SpoofConn.fragments, List.map_map]
    rfl
  rw [hpiece]
  refine ⟨?_, ?_, ?_, ?_⟩
  · intro p hp i hi
    obtain ⟨f, hf, rfl⟩ := List.mem_map.mp hp
    obtain ⟨h8, hle, hstop, _⟩ := hr.range f hf
    simp only [length_fragment hstop] at hi
    simp only [getElem?_drop]
    rw [getElem?_take_of_lt (by omega), Nat.mul_div_cancel' (Nat.dvd_of_mod_eq_zero h8)]
  · intro p hp hmore
    obtain ⟨f, hf, rfl⟩ := List.mem_map.mp hp
    obtain ⟨h8, hle, hstop, hlast⟩ := hr.range f hf
    have hend := hlast hmore
    simp only [length_fragment hstop]
    omega
  · obtain ⟨f, hf, hmore⟩ := (spoofFragments_follow h).exists_last
    exact ⟨_, List.mem_map.mpr ⟨f, hf, rfl⟩, hmore⟩
  · intro i hi
    obtain ⟨f, hf, hlo, hhi⟩ := hr.covers i (Nat.zero_le i) hi
    obtain ⟨h8, hle, hstop, _⟩ := hr.range f hf
    refine ⟨_, List.mem_map.mpr ⟨f, hf, rfl⟩, ?_⟩
    simp only [length_fragment hstop]
    omega

/-! ## Under one identification -/

theorem defragment_fragments {received : List IPPacket} (hmem : ∀ p, p ∈ received ↔ p ∈ c.fragments src id d shim) :
    defragment received (src, c.realPeer, c.sendProfile.ipProtocol, id) =
      some ⟨c.wholeHeader src id d shim.length, shim⟩ := by
  have hall : received.filter (fun p => p.header.key = (src, c.realPeer, c.sendProfile.ipProtocol, id)) = received := by
    refine filter_eq_self.mpr fun p hp => ?_
    obtain ⟨f, -, rfl⟩ := List.mem_map.mp ((hmem p).mp hp)
    exact decide_eq_true rfl
  have htiles : Tiles (received.map IPPacket.piece) shim := by
    apply (fragments_tiles c src id d h).of_mem_iff
    intro q
    simp only [List.mem_map, hmem]
  obtain ⟨first, hfirst⟩ : ∃ first, received.find? (fun p => p.header.fragOff = 0) = some first := by
    obtain ⟨f, hf, hoff⟩ := (spoofFragments_follow h).exists_first
    rw [← isSome_iff_exists, find?_isSome]
    refine ⟨_, (hmem _).mpr (List.mem_map.mpr ⟨f, hf, rfl⟩), ?_⟩
    simp [SpoofConn.fragment, hoff]
  obtain ⟨f, -, rfl⟩ := List.mem_map.mp ((hmem first).mp (mem_of_find?_eq_some hfirst))
  simp only [defragment, hall, hfirst, htiles.reassemble_eq, bind_eq_bind, bind_some]
  rfl

theorem handedUp_fragments {received : List IPPacket} (hmem : ∀ p, p ∈ received ↔ p ∈ c.fragments src id d shim) :
    handedUp received = [⟨c.wholeHeader src id d shim.length, shim⟩] := by
  have hkeys : received.map (·.header.key) =
      replicate received.length (src, c.realPeer, c.sendProfile.ipProtocol, id) := by
    refine eq_replicate_iff.mpr ⟨length_map _, fun key hkey => ?_⟩
    obtain ⟨p, hp, rfl⟩ := List.mem_map.mp hkey
    obtain ⟨f, -, rfl⟩ := List.mem_map.mp ((hmem p).mp hp)
    rfl
  have hsome : received.length ≠ 0 := by
    obtain ⟨f, hf, -⟩ := (spoofFragments_follow h).exists_first
    have hp := (hmem _).mpr (List.mem_map.mpr ⟨f, hf, rfl⟩)
    exact (length_pos_of_mem hp).ne'
  rw [handedUp, hkeys, replicate_dedup hsome, filterMap_cons, defragment_fragments c src id d h hmem]
  rfl

end

/-! ## What the sender's kernel makes of them -/

section

variable (source : IPv4) (idents : Nat → UInt16) (ipID : UInt32)

theorem fillIn_fragment (hsrc : src ≠ .replicate 4 0) (ident : UInt16) (f : SpoofFragRange) :
    fillIn source ident (c.fragment src id d shim f) = c.fragment src (if id = 0 then ident else id) d shim f := by
  have hother : ¬ (c.fragment src id d shim f).header.src = .replicate 4 0 := hsrc
  rw [fillIn, if_neg hother]
  rfl

theorem exists_of_mem_rawSend (hsrc : src ≠ .replicate 4 0) {p : IPPacket}
    (hp : p ∈ rawSend source idents (c.fragments src id d shim)) : ∃ i f,
      (spoofFragments shim.length c.mtu)[i]? = some f ∧
        p = c.fragment src (if id = 0 then idents i else id) d shim f := by
  obtain ⟨i, hi, rfl⟩ := mem_mapIdx.mp hp
  have hlt : i < (spoofFragments shim.length c.mtu).length := by simpa [SpoofConn.fragments] using hi
  refine ⟨i, (spoofFragments shim.length c.mtu)[i], getElem?_eq_getElem hlt, ?_⟩
  simp only [SpoofConn.fragments, getElem_map, fillIn_fragment c src id d source hsrc]

/-- Another identification than zero stays, and one packet gets one identification. -/
theorem rawSend_one_id (hsrc : src ≠ .replicate 4 0) (hone : ipv4HeaderLen + shim.length ≤ c.mtu ∨ id ≠ 0) :
    ∃ id', rawSend source idents (c.fragments src id d shim) = c.fragments src id' d shim := by
  unfold rawSend SpoofConn.fragments
  by_cases hid : id = 0
  · have hsingle : spoofFragments shim.length c.mtu = [⟨0, shim.length, false⟩] :=
      if_pos (hone.resolve_right (not_not.mpr hid))
    rw [hsingle]
    refine ⟨idents 0, ?_⟩
    simp only [map_cons, map_nil, mapIdx_cons, mapIdx_nil, fillIn_fragment c src id d source hsrc, if_pos hid]
  · refine ⟨id, mapIdx_eq_iff.mpr fun i => ?_⟩
    cases hi : ((spoofFragments shim.length c.mtu).map (c.fragment src id d shim))[i]? with
    | none => rfl
    | some p =>
      obtain ⟨f, -, rfl⟩ := List.mem_map.mp (mem_of_getElem? hi)
      rw [Option.map_some, fillIn_fragment c src id d source hsrc, if_neg hid]

/-- Under identifications of their own, the fragments of a segment stay apart. -/
theorem handedUp_own_ids (hsrc : src ≠ .replicate 4 0) (hmtu : 40 < c.mtu)
    (hmany : c.mtu < ipv4HeaderLen + shim.length)
    (hidents : ∀ i j, i < j → j < (c.fragments src 0 d shim).length → idents i ≠ idents j) {received : List IPPacket}
    (hmem : ∀ p, p ∈ received ↔ p ∈ rawSend source idents (c.fragments src 0 d shim)) : handedUp received = [] := by
  rw [ipv4HeaderLen] at hmany
  have hfollow := @spoofFragments_follow shim.length c.mtu (.inl (by omega))
  rw [SpoofConn.fragments, length_map] at hidents
  refine filterMap_eq_nil_iff.mpr fun key _ => ?_
  rw [← not_isSome_iff_eq_none, isSome_iff_exists]
  rintro ⟨packet, hpacket⟩
  obtain ⟨first, hfirst, hrest⟩ := bind_eq_some_iff.mp hpacket
  obtain ⟨body, hbody, -⟩ := bind_eq_some_iff.mp hrest
  obtain ⟨piece, hpiece, hlast⟩ := exists_last_of_reassemble hbody
  obtain ⟨last, hlastmem, rfl⟩ := List.mem_map.mp hpiece
  obtain ⟨hfirstmem, hkey⟩ := mem_filter.mp (mem_of_find?_eq_some hfirst)
  obtain ⟨hlastmem, hkey'⟩ := mem_filter.mp hlastmem
  obtain ⟨i, f, hi, rfl⟩ := exists_of_mem_rawSend c src 0 d source idents hsrc ((hmem _).mp hfirstmem)
  obtain ⟨j, g, hj, rfl⟩ := exists_of_mem_rawSend c src 0 d source idents hsrc ((hmem _).mp hlastmem)
  -- the first and the last fragment of the packet are one and the same
  have hident : idents i = idents j := by
    have heq := (of_decide_eq_true hkey).trans (of_decide_eq_true hkey').symm
    exact congrArg (·.2.2.2) heq
  have hij : i = j := by
    by_contra hne
    rcases Nat.lt_or_gt_of_ne hne with hlt | hlt
    · exact hidents i j hlt (List.getElem?_eq_some_iff.mp hj).1 hident
    · exact hidents j i hlt (List.getElem?_eq_some_iff.mp hi).1 hident.symm
  subst hij
  obtain rfl : f = g := Option.some.inj (hi.symm.trans hj)
  have hf := mem_of_getElem? hi
  obtain ⟨h8, -, -, hend⟩ := hfollow.ranges.range f hf
  have hstop := hend hlast
  have hoff : f.off / 8 = 0 := by simpa [SpoofConn.fragment] using find?_some hfirst
  have hsize := (hfollow.size f hf).2
  rw [rangeSize, if_neg (by rw [ipv4HeaderLen]; omega), ipv4HeaderLen] at hsize
  omega

theorem fragments_parse (h : 0 < shim.length ∨ ipv4HeaderLen ≤ c.mtu) (hfit : ipv4HeaderLen + shim.length ≤ 65535)
    (hsrc : src ≠ .replicate 4 0) {received : List Str}
    (hwire : received.Perm ((rawSend source idents (c.fragments src id d shim)).map IPPacket.marshal)) :
    ∀ p, p ∈ received.filterMap parseIPPacket ↔ p ∈ rawSend source idents (c.fragments src id d shim) := by
  have hwf : ∀ p ∈ rawSend source idents (c.fragments src id d shim), p.WellFormed := by
    intro p hp
    obtain ⟨i, f, hi, rfl⟩ := exists_of_mem_rawSend c src id d source idents hsrc hp
    exact fragment_wellFormed c src _ d h hfit (mem_of_getElem? hi)
  intro p
  rw [mem_filterMap]
  constructor
  · rintro ⟨b, hb, hp⟩
    obtain ⟨q, hq, rfl⟩ := List.mem_map.mp (hwire.mem_iff.mp hb)
    rw [parseIPPacket_marshal q (hwf q hq)] at hp
    cases hp
    exact hq
  · intro hp
    exact ⟨p.marshal, hwire.mem_iff.mpr (List.mem_map.mpr ⟨p, hp, rfl⟩), parseIPPacket_marshal p (hwf p hp)⟩

end

end

end ArangeTun.Spoof
