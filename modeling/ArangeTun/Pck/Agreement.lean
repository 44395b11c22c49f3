import ArangeTun.Pck.Lemmas.Assemble

/-! # The layers and the frame in place -/

namespace ArangeTun.Pck.Layers

open Go Packet List Option

/-! ## The layers -/

theorem drop_new (m n k : Nat) : (List.replicate (m + (k + n)) (0 : UInt8)).drop m =
    List.replicate k 0 ++ List.replicate n 0 := by
  rw [drop_replicate, Nat.add_sub_cancel_left, replicate_add]

theorem written_new (width n : Nat) (src : Str) (fields : List (Nat × Str)) :
    written ((width, src) :: fields) (List.replicate (width + n) 0) =
      overlay src (List.replicate width 0) ++ written fields (List.replicate n 0) := by
  rw [written, take_replicate, drop_replicate, Nat.add_sub_cancel_left, min_eq_left (Nat.le_add_right ..)]

section

variable (p : PckFrameParams)

def startFields : List Str :=
  [putUint16 p.srcPort, putUint16 p.dstPort, putUint32 p.seq, putUint32 p.ack, [0x80], [p.flags], putUint16 pckWindow]

def optionFields : List Str := [[1], [1], [8], [10], putUint32 p.tsVal, putUint32 p.tsEcr, p.payload]

theorem buildPckTCP_eq :
    buildPckTCP p.srcPort p.dstPort p.seq p.ack p.flags p.tsVal p.tsEcr p.srcIP p.dstIP p.payload =
      some (tcpHeader p.typed ++ p.payload) := by
  have hfirst := puts_consecutive (startFields p) [] (List.replicate (16 + (4 + (12 + p.payload.length))) 0)
    (by simp [startFields])
  have hstart : (startFields p).flatten = tcpStart p.typed := by simp [startFields, tcpStart]
  rw [hstart, length_tcpStart, drop_new, nil_append, ← append_assoc] at hfirst
  have hsecond := puts_consecutive_all (optionFields p) (tcpStart p.typed ++ List.replicate 4 0)
    (List.replicate (12 + p.payload.length) 0) (by simp [optionFields]; omega)
  have hbytes : puts (List.replicate (16 + (4 + (12 + p.payload.length))) 0)
      (consecutive 0 (startFields p) ++ consecutive 20 (optionFields p)) =
      some (tcpStart p.typed ++ [0, 0] ++ [0, 0] ++ tcpOptions p.typed ++ p.payload) := by
    rw [puts_append]
    refine (congrArg (Option.bind · _) hfirst).trans ?_
    refine hsecond.trans ?_
    simp [optionFields, tcpOptions]
  have hlen : pckTCPHeaderLen + pckTCPOptionsLen + p.payload.length = 16 + (4 + (12 + p.payload.length)) := by
    rw [pckTCPHeaderLen, pckTCPOptionsLen]
    omega
  unfold buildPckTCP
  dsimp only
  rw [hlen]
  refine (congrArg (Option.bind · _) hbytes).trans ?_
  exact put_tcpChecksum p.typed [] rfl

def ipFields : List Str :=
  [[0x45], [0xb8], putUint16 (UInt16.ofNat (52 + p.payload.length)), putUint16 p.id, putUint16 0x4000, [64], [6]]

theorem toList_fresh_ip4 (ip : Str) : (fresh 4 (ip4 ip)).toList = overlay (ip4 ip) (List.replicate 4 0) := by
  rw [toList_fresh, take_of_length_le (length_ip4_le ip)]

theorem puts_ip (n : Nat) :
    puts (List.replicate (10 + (2 + (4 + (4 + n)))) 0)
      (consecutive 0 (ipFields p) ++ fieldsAt 12 [(4, ip4 p.srcIP), (4, ip4 p.dstIP)]) =
      some (ipStart p.typed ++ [0, 0] ++ ipAddresses p.typed ++ List.replicate n 0) := by
  have hfirst := puts_consecutive (ipFields p) [] (List.replicate (10 + (2 + (4 + (4 + n)))) 0) (by simp [ipFields])
  have hstart : (ipFields p).flatten = ipStart p.typed := by simp [ipFields, ipStart]
  rw [hstart, length_ipStart, drop_new, nil_append, ← append_assoc] at hfirst
  have hsecond := puts_fieldsAt [(4, ip4 p.srcIP), (4, ip4 p.dstIP)] (ipStart p.typed ++ List.replicate 2 0)
    (List.replicate (4 + (4 + n)) 0) (by simp [length_ip4_le]) (by simp; omega)
  have haddr : ipAddresses p.typed = overlay (ip4 p.srcIP) (List.replicate 4 0) ++
      overlay (ip4 p.dstIP) (List.replicate 4 0) := by
    rw [← toList_fresh_ip4, ← toList_fresh_ip4]
    rfl
  rw [written_new, written_new, written, ← append_assoc (overlay _ _), ← haddr, ← append_assoc] at hsecond
  rw [puts_append]
  exact (congrArg (Option.bind · _) hfirst).trans hsecond

theorem buildPckIPv4_eq {l4 : Str} (h : l4.length = 32 + p.payload.length) :
    buildPckIPv4 p.id p.srcIP p.dstIP l4 = some (ipHeader p.typed ++ l4) := by
  have htotal : ipv4HeaderLen + l4.length = 52 + p.payload.length := by
    rw [ipv4HeaderLen]
    omega
  have hnew : (List.replicate (ipv4HeaderLen + l4.length) (0 : UInt8)) =
      List.replicate (10 + (2 + (4 + (4 + l4.length)))) 0 := by
    rw [ipv4HeaderLen]
    congr 1
    omega
  have hip : slice (ipStart p.typed ++ [0, 0] ++ ipAddresses p.typed ++ List.replicate l4.length 0) 0 ipv4HeaderLen =
      some (ipStart p.typed ++ [0, 0] ++ ipAddresses p.typed) :=
    slice_middle [] (ipStart p.typed ++ [0, 0] ++ ipAddresses p.typed) _ rfl (by simp [ipv4HeaderLen])
  have hsum := put_ipChecksum p.typed [] (ipAddresses p.typed) (List.replicate l4.length 0) rfl
  have hbody := put_middle (ipHeader p.typed) (List.replicate l4.length 0) [] l4 (by simp)
  rw [length_ipHeader, append_nil, append_nil] at hbody
  unfold buildPckIPv4
  dsimp only
  rw [length_replicate, hnew, htotal]
  refine (congrArg (Option.bind · _) (puts_ip p l4.length)).trans ?_
  simp only [bind_some, hip, bind_eq_bind, puts, foldlM_cons, foldlM_nil]
  refine (congrArg (Option.bind · _) hsum).trans ?_
  exact congrArg (Option.bind · some) hbody

theorem buildPckEthernet_eq (ip : Str) :
    buildPckEthernet p.dstMAC p.srcMAC ip = some (ethernetHeader p.typed ++ ip) := by
  have hw := puts_fieldsAt [(6, p.dstMAC.take 6), (6, p.srcMAC.take 6), (2, putUint16 etherTypeIPv4), (ip.length, ip)] []
    (List.replicate (6 + (6 + (2 + (ip.length + 0)))) 0) (by simp) (by simp)
  have htype : overlay (putUint16 etherTypeIPv4) (List.replicate 2 0) = putUint16 etherTypeIPv4 := rfl
  have hip : overlay ip (List.replicate ip.length 0) = ip := overlay_of_length_eq (by simp)
  rw [written_new, written_new, written_new, written_new, htype, hip] at hw
  have hnew : pckEthHeaderLen + ip.length = 6 + (6 + (2 + (ip.length + 0))) := by
    rw [pckEthHeaderLen]
    omega
  rw [buildPckEthernet, hnew]
  refine hw.trans ?_
  simp [ethernetHeader, PckFrameParams.typed, written]

theorem layeredFrame_eq : layeredFrame p = some (pckFrame p.typed) := by
  have hl4 : (tcpHeader p.typed ++ p.payload).length = 32 + p.payload.length := by simp
  simp only [layeredFrame, buildPckTCP_eq, buildPckIPv4_eq p hl4, buildPckEthernet_eq, bind_eq_bind,
    bind_some]
  rfl

end

/-! ## Agreement -/

/-- An address that is not IPv4 leaves its field of the IP header as the buffer had it. -/
def ZeroUnless (ip field : Str) : Prop := Relay.to4 ip = none → field = List.replicate 4 0

theorem overlay_ip4_eq_iff {ip field : Str} (h : field.length = 4) :
    overlay (ip4 ip) field = (fresh 4 (ip4 ip)).toList ↔ ZeroUnless ip field := by
  rw [toList_fresh_ip4, ZeroUnless]
  rcases ip4_eq_nil_or ip with ⟨hnone, hnil⟩ | ⟨hsome, hlen⟩
  · rw [hnil]
    exact ⟨fun heq _ => heq, fun hzero => hzero hnone⟩
  · rw [overlay_of_length_eq (by rw [hlen, h]), overlay_of_length_eq (by rw [hlen]; rfl)]
    exact ⟨fun _ hnone => absurd hnone hsome, fun _ => rfl⟩

theorem ipHeaderWith_inj {p : Pck.PckFrameParams} {a b : Str} :
    ipHeaderWith p a = ipHeaderWith p b ↔ a = b := by
  refine ⟨fun h => ?_, fun h => by rw [h]⟩
  exact (append_inj h (by simp)).2

section

variable {p : PckFrameParams} {buf : Str}

theorem ethernetOver_eq (hsrc : p.srcMAC.length = 6) (hdst : p.dstMAC.length = 6) (h : 12 ≤ buf.length) :
    ethernetOver p buf = ethernetHeader p.typed := by
  have hfirst : (buf.take 6).length = 6 := length_take_of_le (by omega)
  have hsecond := @length_field buf 6 6 (by omega)
  have hwhole {mac field : Str} (hmac : mac.length = 6) (hfield : field.length = 6) :
      overlay (mac.take 6) field = (fresh 6 mac).toList := by
    rw [toList_fresh, take_of_length_le hmac.le, overlay_of_length_eq (by omega),
      overlay_of_length_eq (by rw [hmac]; rfl)]
  rw [ethernetOver, hwhole hdst hfirst, hwhole hsrc hsecond]
  rfl

theorem addressesOver_eq_iff (h : 34 ≤ buf.length) :
    addressesOver p buf = ipAddresses p.typed ↔
      ZeroUnless p.srcIP ((buf.drop 26).take 4) ∧ ZeroUnless p.dstIP ((buf.drop 30).take 4) := by
  have hsrc := @length_field buf 26 4 (by omega)
  have hdst := @length_field buf 30 4 (by omega)
  rw [← overlay_ip4_eq_iff hsrc, ← overlay_ip4_eq_iff hdst]
  constructor
  · intro heq
    exact append_inj heq (by rw [length_overlay (by rw [hsrc]; exact length_ip4_le _), hsrc, Vector.length_toList])
  · rintro ⟨hs, hd⟩
    rw [addressesOver, hs, hd]
    rfl

/-- The frame in place is the frame of the layers exactly when each address is an IPv4 address or finds zeros in its
field of the buffer. -/
theorem assemblePckFrame_eq_layers_iff (hsrc : p.srcMAC.length = 6) (hdst : p.dstMAC.length = 6)
    (h : pckFrameLen p.payload.length ≤ buf.length) :
    ∃ frame layered, assemblePckFrame buf p = some frame ∧ layeredFrame p = some layered ∧
      (frame = layered ↔
        ZeroUnless p.srcIP ((buf.drop 26).take 4) ∧ ZeroUnless p.dstIP ((buf.drop 30).take 4)) := by
  have hlen := pckFrameLen_eq p.payload.length
  refine ⟨_, _, assemblePckFrame_eq h, layeredFrame_eq p, ?_⟩
  rw [← addressesOver_eq_iff (by omega), frameOver, ethernetOver_eq hsrc hdst (by omega), pckFrame, ipHeader_eq,
    append_cancel_left_eq, PckFrameParams.typed_payload, append_cancel_right_eq, ipHeaderWith_inj]

end

def sample (srcIP dstIP : Str) : PckFrameParams :=
  ⟨[2, 0, 0, 0, 0, 1], [2, 0, 0, 0, 0, 2], srcIP, dstIP, 40000, 443, 7, 8, 0x18, 9, 10, 3, lit "hello"⟩

/-- A mapped and a short IPv4 address, over a buffer that was used before. -/
theorem sample_agrees :
    ∃ frame layered,
      assemblePckFrame (List.replicate 80 0xee)
        (sample (List.replicate 10 0 ++ [0xff, 0xff, 10, 0, 0, 1]) [10, 0, 0, 2]) = some frame ∧
      layeredFrame (sample (List.replicate 10 0 ++ [0xff, 0xff, 10, 0, 0, 1]) [10, 0, 0, 2]) = some layered ∧
      frame = layered := by
  obtain ⟨frame, layered, hframe, hlayered, hiff⟩ := assemblePckFrame_eq_layers_iff
    (p := sample (List.replicate 10 0 ++ [0xff, 0xff, 10, 0, 0, 1]) [10, 0, 0, 2]) rfl rfl
    (show _ ≤ (List.replicate 80 (0xee : UInt8)).length by decide)
  exact ⟨frame, layered, hframe, hlayered, hiff.mpr ⟨nofun, nofun⟩⟩

/-- The source 2001:db8::1 has no IPv4 form: the header keeps the old bytes, the layers leave zeros. -/
theorem ipv6_source_keeps_buffer :
    let p := sample ([0x20, 0x01, 0x0d, 0xb8] ++ List.replicate 11 0 ++ [1]) [10, 0, 0, 2]
    p.srcMAC.length = 6 ∧ p.dstMAC.length = 6 ∧ pckFrameLen p.payload.length ≤ 80 ∧
      assemblePckFrame (List.replicate 80 0xee) p ≠ layeredFrame p := by
  decide +kernel

end ArangeTun.Pck.Layers
