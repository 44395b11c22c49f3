import ArangeTun.Xdi.Model

/-! # The xdi carrier: demultiplexing -/

namespace ArangeTun.Xdi

open Go Icmp Transition List Option

/-! ## Framing -/

theorem take_eq_tag_iff {tag : Tag} {data : Str} (h : xdiTagLen ≤ data.length) :
    data.take xdiTagLen = tag.toList ↔ ∀ i : Fin xdiTagLen, data.getD i 0 = tag.get i := by
  have hget (i : Fin xdiTagLen) : (data.take xdiTagLen).getD i 0 = data.getD i 0 := getD_take i.isLt
  have htag (i : Fin xdiTagLen) : tag.toList.getD i 0 = tag.get i := by
    rw [getD_eq_getElem?_getD, getElem?_eq_getElem (by simp [i.isLt])]
    simp [Vector.get]
  constructor
  · intro heq i
    rw [← hget, heq, htag]
  · intro hall
    apply ext_getElem
    · simpa using h
    · intro i hi hi'
      have := hall ⟨i, by simpa using hi'⟩
      rw [← hget, ← htag, getD_eq_getElem?_getD, getD_eq_getElem?_getD, getElem?_eq_getElem hi,
        getElem?_eq_getElem hi'] at this
      exact this

theorem decodeXdiPayload_eq (tag : Tag) (dir : UInt8) (x q : Str) :
    decodeXdiPayload tag dir x = some q ↔ x = encodeXdiPayload tag dir q := by
  unfold decodeXdiPayload encodeXdiPayload
  constructor
  · intro h
    split at h
    · cases h
    · rename_i hlen
      rw [xdiHeaderLen, Nat.not_lt] at hlen
      split at h
      · cases h
      · rename_i htag
        simp only [not_exists, not_not] at htag
        split at h
        · cases h
        · rename_i hdir
          obtain rfl := Option.some.inj h
          have htake := (take_eq_tag_iff (Nat.le_of_succ_le hlen)).mpr htag
          have hdrop : x.drop xdiTagLen = dir :: x.drop (xdiTagLen + 1) := by
            rw [drop_eq_getElem_cons hlen, ← not_not.mp hdir, getD_eq_getElem?_getD,
              getElem?_eq_getElem hlen]
            rfl
          conv_lhs => rw [← take_append_drop xdiTagLen x, htake, hdrop]
          rfl
  · rintro rfl
    have hlen : tag.toList.length = xdiTagLen := by simp
    have htake : ∀ i : Fin xdiTagLen, (tag.toList ++ dir :: q).getD i 0 = tag.get i :=
      (take_eq_tag_iff (by simp)).mp (take_left' hlen)
    rw [if_neg (by simp [xdiHeaderLen]), if_neg (by simpa using htake)]
    have hdir : (tag.toList ++ dir :: q).getD xdiTagLen 0 = dir := by
      have := getD_append_length tag.toList (dir :: q) 0
      rwa [hlen] at this
    rw [if_neg (not_not.mpr hdir), xdiHeaderLen, ← drop_drop, drop_left' hlen]
    rfl

theorem take_encodeXdiPayload (tag : Tag) (dir : UInt8) (p : Str) :
    (encodeXdiPayload tag dir p).take xdiTagLen = tag.toList :=
  take_left' (by simp)

theorem encodeXdiPayload_inj {tag : Tag} {dir dir' : UInt8} {p p' : Str}
    (h : encodeXdiPayload tag dir p = encodeXdiPayload tag dir' p') : dir = dir' ∧ p = p' :=
  List.cons.inj (append_cancel_left h)

theorem eq_not_of_outboundDir {a b : Bool} (h : outboundDir a = inboundDir b) : a = !b := by
  cases a <;> cases b <;> first | rfl | exact absurd h (by decide)

/-! ## One packet -/

/-- The packet carries the tag only if an end of the tunnel wrote its payload. -/
def Packet.Sound (tag : Tag) (ends : Bool → End) (x : Packet) : Prop :=
  ∀ m e, parseMessage x.bytes = some m → m.body = .echo e → e.data.take xdiTagLen = tag.toList →
    ∃ server p, x.origin = .writeTo server p ∧ p ∈ (ends server).written ∧
      e.data = encodeXdiPayload tag (outboundDir server) p

def Returned.Sound (ends : Bool → End) (server : Bool) (r : Returned) : Prop :=
  ∃ p, r.origin = .writeTo (!server) p ∧ p ∈ (ends (!server)).written ∧ r.data = p.take r.room

section

variable {c : IcmpConn} {n : Nat} {header b q : Str}

theorem receive_eq_some (hh : IsIPv4Header header) (h : c.receive n header b = some q) :
    ∃ m e p, parseMessage b = some m ∧ m.body = .echo e ∧
      e.data = encodeXdiPayload c.tag (inboundDir c.server) p ∧ q = p.take n := by
  have hsize : 60 ≤ n + icmpMTUOverhead + 64 := by omega
  simp only [IcmpConn.receive, stripIPv4Header_of_isIPv4Header hh hsize, bind_eq_some_iff,
    ite_none_left_eq_some] at h
  obtain ⟨m, hm, -, h⟩ := h
  cases hbody : m.body with
  | other _ => simp [hbody] at h
  | echo e =>
    simp only [hbody, ite_none_left_eq_some] at h
    obtain ⟨p, hdec, rfl⟩ := map_eq_some_iff.mp h.2
    obtain ⟨m', e', hm', hbody', hdata⟩ := parseMessage_take hm hbody
    have henc := (decodeXdiPayload_eq _ _ _ _).mp hdec
    -- the buffer has room for the headers and more than `n` bytes of the payload
    generalize hk : n + icmpMTUOverhead + 64 - header.length - 8 = k at hdata
    have hkn : n + xdiHeaderLen ≤ k := by
      have := hh.max
      simp only [icmpMTUOverhead, xdiHeaderLen, xdiTagLen] at hk ⊢
      omega
    refine ⟨m', e', p ++ e'.data.drop k, hm', hbody', ?_, ?_⟩
    · calc e'.data = e'.data.take k ++ e'.data.drop k := (take_append_drop k _).symm
        _ = encodeXdiPayload c.tag (inboundDir c.server) p ++ e'.data.drop k := by rw [← hdata, henc]
        _ = encodeXdiPayload c.tag (inboundDir c.server) (p ++ e'.data.drop k) := by simp [encodeXdiPayload]
    · by_cases hcut : e'.data.length ≤ k
      · rw [drop_of_length_le hcut, append_nil]
      · have hp : n ≤ p.length := by
          have hlen := congrArg List.length (hdata.symm.trans henc)
          simp only [length_take, encodeXdiPayload, length_append, Vector.length_toList,
            length_cons, xdiHeaderLen] at hlen hkn
          omega
        rw [take_append_of_le_length hp]

theorem receive_sound {server : Bool} {ends : Bool → End} {a : Arrival} (hserver : c.server = server)
    (hh : IsIPv4Header a.header) (hx : a.packet.Sound c.tag ends)
    (h : c.receive n a.header a.packet.bytes = some q) :
    Returned.Sound ends server ⟨n, q, a.packet.origin⟩ := by
  obtain ⟨m, e, p, hm, he, hdata, rfl⟩ := receive_eq_some hh h
  obtain ⟨side, p', horigin, hmem, hdata'⟩ := hx m e hm he (by rw [hdata, take_encodeXdiPayload])
  obtain ⟨hdir, rfl⟩ := encodeXdiPayload_inj (hdata'.symm.trans hdata)
  rw [hserver] at hdir
  obtain rfl := eq_not_of_outboundDir hdir
  exact ⟨p', horigin, hmem, rfl⟩

theorem readFrom_sound {server : Bool} {ends : Bool → End} {arrivals : List Arrival} {r : Returned}
    (hserver : c.server = server)
    (hsound : ∀ a ∈ arrivals, IsIPv4Header a.header ∧ a.packet.Sound c.tag ends)
    (h : c.readFrom n arrivals = some r) : r.Sound ends server := by
  induction arrivals with
  | nil => cases h
  | cons a as ih =>
    rw [IcmpConn.readFrom] at h
    obtain ⟨ha, hx⟩ := hsound a mem_cons_self
    split at h
    · rename_i data hdata
      obtain rfl := Option.some.inj h
      exact receive_sound hserver ha hx hdata
    · exact ih (fun a' ha' => hsound a' (mem_cons_of_mem _ ha')) h

end

section

variable {tag : Tag} {ends : Bool → End}

theorem Packet.Sound.of_marshal {typ code : UInt8} {e : Echo} {origin : Origin}
    (h : e.data.take xdiTagLen = tag.toList → ∃ server p, origin = .writeTo server p ∧ p ∈ (ends server).written ∧
      e.data = encodeXdiPayload tag (outboundDir server) p) :
    Packet.Sound tag ends ⟨origin, marshal typ code e⟩ := by
  intro m e' hm he' htag
  obtain rfl := parseMessage_marshal hm he'
  exact h htag

theorem Packet.Sound.kernelReply {x : Packet} {code : UInt8} {seq : UInt16} {b : Str} (hx : x.Sound tag ends)
    (h : kernelReply code seq x.bytes = some b) : Packet.Sound tag ends ⟨x.origin, b⟩ := by
  obtain ⟨m, hm, h⟩ := bind_eq_some_iff.mp h
  split at h
  · cases h
  · rename_i e he
    obtain ⟨-, h⟩ := ite_none_right_eq_some.mp h
    obtain rfl := Option.some.inj h
    exact .of_marshal fun htag => hx m e hm he htag

end

/-! ## Runs -/

structure Inv (token : Str) (s : State) : Prop where
  server : ∀ side, (s.ends side).conn.server = side
  tag : ∀ side, (s.ends side).conn.tag = (xdiIdentity token).2
  network : ∀ x ∈ s.network, x.Sound (xdiIdentity token).2 s.ends
  returned : ∀ side, ∀ r ∈ (s.ends side).returned, r.Sound s.ends side

section

variable {token : Str} {s s' : State}

theorem Inv.initial (token : Str) : Inv token (.initial token) :=
  ⟨fun _ => rfl, fun _ => rfl, fun _ h => absurd h not_mem_nil, fun _ _ h => absurd h not_mem_nil⟩

theorem Inv.put (h : Inv token s) {x : Packet} (hx : x.Sound (xdiIdentity token).2 s.ends) : Inv token (s.put x) := by
  refine ⟨h.server, h.tag, fun y hy => ?_, h.returned⟩
  rcases mem_cons.mp hy with rfl | hy
  · exact hx
  · exact h.network y hy

theorem forall_setEnd {P : Bool → End → Prop} {side : Bool} {e : End} (he : P side e)
    (h : ∀ side', P side' (s.ends side')) :
    ∀ side', P side' ((s.setEnd side e).ends side') := by
  intro side'
  by_cases hside : side' = side
  · subst hside
    simpa [State.setEnd] using he
  · simpa [State.setEnd, hside] using h side'

theorem written_setEnd {side : Bool} {e : End} (hsub : (s.ends side).written ⊆ e.written) (side' : Bool) :
    (s.ends side').written ⊆ ((s.setEnd side e).ends side').written := by
  by_cases hside : side' = side
  · subst hside
    simpa [State.setEnd] using hsub
  · simp [State.setEnd, hside]

theorem Inv.setEnd (h : Inv token s) {side : Bool} {e : End} (hserver : e.conn.server = side)
    (htag : e.conn.tag = (xdiIdentity token).2) (hsub : (s.ends side).written ⊆ e.written)
    (hret : ∀ r ∈ e.returned, r.Sound s.ends side) : Inv token (s.setEnd side e) := by
  have hgrows := written_setEnd hsub
  refine ⟨?_, ?_, fun x hx m e' hm he' ht => ?_, ?_⟩
  · exact forall_setEnd (P := fun side' e' => e'.conn.server = side') hserver h.server
  · exact forall_setEnd (P := fun _ e' => e'.conn.tag = (xdiIdentity token).2) htag h.tag
  · obtain ⟨side', p, horigin, hmem, hdata⟩ := h.network x hx m e' hm he' ht
    exact ⟨side', p, horigin, hgrows side' hmem, hdata⟩
  · have hsound := forall_setEnd (P := fun side' e' => ∀ r ∈ e'.returned, r.Sound s.ends side') hret h.returned
    intro side' r hr
    obtain ⟨p, horigin, hmem, hdata⟩ := hsound side' r hr
    exact ⟨p, horigin, hgrows _ hmem, hdata⟩

theorem Inv.writeTo (h : Inv token s) (server : Bool) (p : Str) {conn : IcmpConn} (hserver : conn.server = server)
    (htag : conn.tag = (xdiIdentity token).2) :
    Inv token (s.setEnd server ⟨conn, p :: (s.ends server).written, (s.ends server).returned⟩) :=
  h.setEnd hserver htag (subset_cons_self _ _) (h.returned server)

theorem step_inv {a : Action} (h : Inv token s) (hs : step token s a = some s') : Inv token s' := by
  cases a with
  | writeTo server p outcome =>
    have hserver := h.server server
    have htag := h.tag server
    cases outcome with
    | badAddr | sendError =>
      obtain rfl := Option.some.inj hs
      exact h.writeTo server p hserver htag
    | sent =>
      obtain rfl := Option.some.inj hs
      apply Inv.put
      · exact h.writeTo server p hserver htag
      · refine .of_marshal fun _ => ⟨server, p, rfl, ?_, ?_⟩
        · simp [State.setEnd]
        · simp only [hserver, htag]
  | reflect x code seq =>
    obtain ⟨hx, hs⟩ := ite_none_right_eq_some.mp hs
    obtain ⟨b, hb, rfl⟩ := map_eq_some_iff.mp hs
    exact h.put ((h.network x hx).kernelReply hb)
  | otherTunnel reply code id seq tag dir p =>
    obtain ⟨hne, hs⟩ := ite_none_right_eq_some.mp hs
    obtain rfl := Option.some.inj hs
    refine h.put (.of_marshal fun htag => absurd ?_ hne)
    rw [take_encodeXdiPayload] at htag
    exact Vector.toList_inj.mp htag
  | ping typ code echo =>
    obtain ⟨hne, hs⟩ := ite_none_right_eq_some.mp hs
    obtain rfl := Option.some.inj hs
    exact h.put (.of_marshal fun htag => absurd htag hne)
  | readFrom server n arrivals =>
    obtain ⟨harr, hs⟩ := ite_none_right_eq_some.mp hs
    split at hs
    · obtain rfl := Option.some.inj hs
      exact h
    · rename_i r hr
      obtain rfl := Option.some.inj hs
      refine h.setEnd (h.server server) (h.tag server) (List.Subset.refl _) fun r' hr' => ?_
      rcases mem_cons.mp hr' with rfl | hr'
      · refine readFrom_sound (h.server server) (fun a ha => ⟨(harr a ha).2, ?_⟩) hr
        rw [h.tag]
        exact h.network _ (harr a ha).1
      · exact h.returned server r' hr'

end

/-- Whatever the network does, what a `ReadFrom` returns is a payload that the peer passed to `WriteTo`, as much of it
as the buffer holds, from a packet whose payload the peer made. -/
theorem xdi_returns_payloads_of_peer (token : Str) :
    (∀ s, Reach (step token) Any (.initial token) s → ∀ server, ∀ r ∈ (s.ends server).returned,
      ∃ p, r.origin = .writeTo (!server) p ∧ p ∈ (s.ends (!server)).written ∧ r.data = p.take r.room ∧
        (p.length ≤ r.room → r.data = p)) ∧
    ∀ (tag : Tag) (d : UInt8) (x q : Str), decodeXdiPayload tag d x = some q ↔ x = encodeXdiPayload tag d q := by
  refine ⟨fun s hs server r hr => ?_, decodeXdiPayload_eq⟩
  have hinv : Inv token s := hs.invariant (.initial token) fun s a s' h _ hs => step_inv h hs
  obtain ⟨p, horigin, hmem, hdata⟩ := hinv.returned server r hr
  exact ⟨p, horigin, hmem, hdata, fun hfits => by rw [hdata, take_of_length_le hfits]⟩

/-- The server's kernel answers the client's request before the server does. -/
theorem xdi_returns_payloads_of_peer_reflected :
    ∃ s, Reach (step (lit "secret")) Any (.initial (lit "secret")) s ∧
      (s.ends false).returned = [⟨1500, lit "pong", .writeTo true (lit "pong")⟩] ∧
      ∀ r ∈ (s.ends false).returned, ∃ p, r.origin = .writeTo true p ∧ p ∈ (s.ends true).written ∧
        r.data = p.take r.room ∧ (p.length ≤ r.room → r.data = p) := by
  let header : Str := 0x45 :: .replicate 19 0
  let request : Packet := ⟨.writeTo false (lit "ping"), (newICMPConn false (lit "secret")).wire (lit "ping")⟩
  let reflected : Packet := ⟨request.origin, (kernelReply 0 1 request.bytes).getD []⟩
  let answer : Packet := ⟨.writeTo true (lit "pong"), (newICMPConn true (lit "secret")).wire (lit "pong")⟩
  obtain ⟨s, hs, hret⟩ : ∃ s, Reach (step (lit "secret")) Any (.initial (lit "secret")) s ∧
      (s.ends false).returned = [⟨1500, lit "pong", .writeTo true (lit "pong")⟩] := exists_reach
    [.writeTo false (lit "ping") .sent, .reflect request 0 1, .writeTo true (lit "pong") .sent,
      .readFrom false 1500 [⟨header, request⟩, ⟨header, reflected⟩, ⟨header, answer⟩]] (by decide +kernel)
  exact ⟨s, hs, hret, (xdi_returns_payloads_of_peer (lit "secret")).1 s hs false⟩

end ArangeTun.Xdi
