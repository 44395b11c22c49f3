import ArangeTun.Tunnels.Load

/-! # A rendered file is read back -/

namespace ArangeTun.Tunnels

open Go Toml List Option

/-! ## What is printed -/

def Key.serverPrints : Key → Bool
  | .remoteAddr | .fallbackAddrs | .connectionPool | .retryInterval | .dialTimeout | .aggressivePool | .edgeIp | .proxy
  | .localAddr | .interface | .soMark | .loadBalance | .healthFailover | .muxSession | .stealth => false
  | _ => true

def Key.clientPrints : Key → Bool
  | .bindAddr | .channelSize | .ports | .tlsCert | .tlsKey | .acmeDomain | .acmeEmail | .heartbeat | .muxCon | .acceptUdp
  | .proxyProtocol | .maxConnections | .bandwidthMbps | .stealth => false
  | _ => true

namespace TunnelSpec

variable {s : TunnelSpec} {k : Key} {v : Value}

def sectionFor (s : TunnelSpec) (prints : Key → Bool) : Section := fun k =>
  (if prints k then s.item k else none).getD (.zero k.kind)

def config (s : TunnelSpec) : Config :=
  if s.role = lit "server" then ⟨s.sectionFor Key.serverPrints, .zero⟩ else ⟨.zero, s.sectionFor Key.clientPrints⟩

/-- The obfuscation and a certificate of a transport are not both there, so no key is printed twice. -/
def Printable (s : TunnelSpec) : Prop := validName s.name = true ∧ ¬ (s.obfs = lit "tls" ∧ needsTLS s.transport = true)

def strings (s : TunnelSpec) : List Str := s.written.flatMap fun kv => kv.2.strings

end TunnelSpec

/-! ## The kind of what is printed -/

def KindIs (κ : Kind) (o : Option Value) : Prop := ∀ v ∈ o, v.kind = κ

section

variable {κ : Kind} {o : Option Value} {v : Value}

@[simp] theorem kindIs_none : KindIs κ none := by rintro v ⟨⟩

@[simp] theorem kindIs_some : KindIs κ (some v) ↔ v.kind = κ := by simp [KindIs]

@[simp] theorem kindIs_within {c : Prop} [Decidable c] (h : KindIs κ o) : KindIs κ (within c o) := by
  unfold within
  split
  · exact h
  · exact kindIs_none

@[simp] theorem kindIs_positive {n : Int} : KindIs .int (positive n) := kindIs_within (kindIs_some.mpr rfl)

@[simp] theorem kindIs_nonempty {x : Str} : KindIs .str (nonempty x) := kindIs_within (kindIs_some.mpr rfl)

@[simp] theorem kindIs_nonemptyList {l : List Str} : KindIs .strs (nonemptyList l) := kindIs_within (kindIs_some.mpr rfl)

@[simp] theorem kindIs_flag {b : Bool} : KindIs .bool (flag b) := kindIs_within (kindIs_some.mpr rfl)

end

/-! ## The keys of a role -/

namespace TunnelSpec

variable {s : TunnelSpec} {k : Key} {v : Value}

theorem serverOrder_nodup : ∀ a b : Bool, ¬ (a = true ∧ b = true) → (serverOrder a b).Nodup := by decide

theorem clientOrder_nodup : clientOrder.Nodup := by decide

theorem keys_nodup (h : s.Printable) : s.keys.Nodup := by
  unfold keys
  split
  · exact serverOrder_nodup _ _ fun hab => h.2 ⟨of_decide_eq_true hab.1, hab.2⟩
  · exact clientOrder_nodup

theorem mem_serverOrder (a b : Bool) (k : Key) :
    k ∈ serverOrder a b ↔ k.serverPrints = true ∧ (k = .acmeDomain ∨ k = .acmeEmail → a = true ∨ b = true) := by
  have hall : ∀ a b : Bool, ∀ k ∈ Key.all, k ∈ serverOrder a b ↔
      k.serverPrints = true ∧ (k = .acmeDomain ∨ k = .acmeEmail → a = true ∨ b = true) := by decide
  exact hall a b k (Key.mem_all k)

theorem mem_clientOrder (k : Key) : k ∈ clientOrder ↔ k.clientPrints = true := by
  have hall : ∀ k ∈ Key.all, k ∈ clientOrder ↔ k.clientPrints = true := by decide
  exact hall k (Key.mem_all k)

theorem item_kind (k : Key) : KindIs k.kind (s.item k) := by
  cases k <;> dsimp only [item, Key.kind] <;> simp [Value.kind]

/-! ## Reading it back -/

theorem nameByte_of_mem {name : Str} {b : UInt8} (h : validName name = true) (hb : b ∈ name) : nameByte b = true :=
  (of_decide_eq_true h).2.2 b hb

theorem nameByte_bounds {b : UInt8} (h : nameByte b = true) : 45 ≤ b.toNat ∧ b.toNat ≤ 122 := by
  simp only [nameByte, decide_eq_true_eq, UInt8.le_iff_toNat_le] at h
  obtain h | h | h | rfl | rfl | rfl := h
  · exact ⟨Nat.le_trans (by decide) h.1, Nat.le_trans h.2 (by decide)⟩
  · exact ⟨Nat.le_trans (by decide) h.1, h.2⟩
  · exact ⟨Nat.le_trans (by decide) h.1, Nat.le_trans h.2 (by decide)⟩
  · decide
  · decide
  · decide

theorem ordinary_of_nameByte {b : UInt8} (h : nameByte b = true) : ¬ Control b ∧ b ≠ newline := by
  obtain ⟨hlo, hhi⟩ := nameByte_bounds h
  refine ⟨?_, ?_⟩
  · rintro (⟨hlt, -⟩ | rfl)
    · exact absurd (UInt8.lt_iff_toNat_lt.mp hlt) (Nat.not_lt.mpr (Nat.le_trans (by decide) hlo))
    · exact absurd hhi (by decide)
  · rintro rfl
    exact absurd hlo (by decide)

def doc (s : TunnelSpec) : Doc := ⟨[s.table], s.written.map fun kv => ((s.table, kv.1.name), kv.2)⟩

theorem lookup_filterMap (t t' : Str) (f : Key → Option Value) (ks : List Key) (k : Key) :
    (((ks.filterMap fun k => (f k).map fun v => (k, v)).map fun kv => ((t, kv.1.name), kv.2)).find?
      fun e => e.1 = (t', k.name)).map Prod.snd = if t = t' ∧ k ∈ ks then f k else none := by
  induction ks with
  | nil => simp
  | cons j ks ih =>
    by_cases hj : j = k
    · subst hj
      cases hf : f j with
      | none =>
        rw [filterMap_cons_none (by rw [hf]; rfl), ih, hf, ite_self, ite_self]
      | some v =>
        rw [filterMap_cons_some (by rw [hf]; rfl), map_cons, find?_cons]
        by_cases ht : t = t'
        · simp [ht]
        · simp only [Prod.mk.injEq, ht, false_and, decide_false]
          rw [ih, if_neg fun hc => ht hc.1]
          rfl
    · have hname : j.name ≠ k.name := fun h => hj (Key.name_injective h)
      simp only [mem_cons, Ne.symm hj, false_or]
      cases hf : f j with
      | none => rw [filterMap_cons_none (by rw [hf]; rfl), ih]
      | some v =>
        rw [filterMap_cons_some (by rw [hf]; rfl), map_cons, find?_cons]
        simp only [Prod.mk.injEq, hname, and_false, decide_false]
        exact ih

theorem lookup_doc (t : Str) (k : Key) :
    s.doc.lookup t k.name = if s.table = t ∧ k ∈ s.keys then s.item k else none :=
  lookup_filterMap s.table t s.item s.keys k

theorem written_sublist : (s.written.map Prod.fst).Sublist s.keys := by
  unfold written
  induction s.keys with
  | nil => exact .slnil
  | cons k ks ih =>
    cases hk : s.item k with
    | none =>
      rw [filterMap_cons_none (by rw [hk]; rfl)]
      exact ih.cons k
    | some v =>
      rw [filterMap_cons_some (by rw [hk]; rfl), map_cons]
      exact ih.cons_cons k

theorem itemLine_item (kv : Key × Value) : (itemLine kv).item = some (kv.1.name, kv.2) := by
  fun_cases itemLine kv <;> rfl

theorem comments_read : ∀ l ∈ s.comments, l.strings = [] ∧ ∀ σ : State, l.read σ = some σ := by
  simp only [comments, mem_cons, not_mem_nil, or_false]
  rintro l (rfl | rfl | rfl) <;> exact ⟨rfl, fun σ => rfl⟩

theorem lines_wf (h : s.Printable) : ∀ l ∈ s.comments ++ .header s.table :: s.written.map itemLine, l.WF := by
  have hname : ∀ b ∈ s.name, ¬ Control b ∧ b ≠ newline := fun b hb => ordinary_of_nameByte (nameByte_of_mem h.1 hb)
  have hfixed : ∀ u ∈ [lit " Generated by arange-tun " ++ [0xe2, 0x80, 0x94] ++
      lit " do not edit while the service is running.", lit " name = \"", lit "\""],
      ∀ b ∈ u, ¬ Control b ∧ b ≠ newline := by decide
  have htable : ∀ t ∈ [lit "server", lit "client"], t ≠ [] ∧ ∀ b ∈ t, Bare b := by decide
  simp only [mem_append, mem_cons, List.mem_map, comments, not_mem_nil, or_false]
  rintro l ((rfl | rfl | rfl) | rfl | ⟨kv, -, rfl⟩)
  · exact hfixed _ (by simp)
  · simp only [Line.WF, forall_mem_append]
    exact ⟨⟨hfixed _ (by simp), hname⟩, hfixed _ (by simp)⟩
  · trivial
  · refine htable _ ?_
    unfold table
    split <;> simp
  · fun_cases itemLine kv <;> exact Key.name_bare _

theorem parse_render {isPrint : Char → Bool} {d : Doc} (h : s.Printable) :
    Toml.parse (s.render isPrint) = some d ↔ (∀ x ∈ s.strings, Quotable x) ∧ d = s.doc := by
  have hnd : (s.written.map fun kv => kv.1.name).Nodup := by
    have hkeys : (s.written.map Prod.fst).Nodup := (keys_nodup h).sublist written_sublist
    have hnames := hkeys.map Key.name_injective
    rwa [List.map_map] at hnames
  have hstr : (∀ x ∈ s.strings, Quotable x) ↔ ∀ kv ∈ s.written, ∀ x ∈ kv.2.strings, Quotable x := by
    simp only [strings, forall_mem_flatMap]
  rw [render, lines, parse_table comments_read itemLine_item (lines_wf h), hstr]
  exact and_congr_right fun _ => and_iff_right hnd

theorem decodeSection_doc (t : Str) (has : Key → Bool) :
    decodeSection s.doc t has = some fun k =>
      (if has k = true ∧ s.table = t ∧ k ∈ s.keys then s.item k else none).getD (.zero k.kind) := by
  unfold decodeSection
  rw [if_pos]
  · refine congrArg some (funext fun k => ?_)
    rw [lookup_doc]
    by_cases hk : has k = true
    · simp only [hk, if_true, true_and]
    · simp only [hk, if_false, false_and, Bool.false_eq_true]
      rfl
  · intro k _ _ v hv
    rw [lookup_doc] at hv
    split at hv
    · exact item_kind k v hv
    · cases hv

theorem ofServer_of_serverPrints (k : Key) (h : k.serverPrints = true) : k.ofServer = true := by
  cases k <;> first | rfl | cases h

theorem ofClient_of_clientPrints (k : Key) (h : k.clientPrints = true) : k.ofClient = true := by
  cases k <;> first | rfl | cases h

theorem item_acme (h : ¬ (s.obfs = lit "tls" ∨ needsTLS s.transport = true)) (hk : k = .acmeDomain ∨ k = .acmeEmail) :
    s.item k = none := by
  obtain rfl | rfl := hk <;> exact if_neg h

theorem printed_server (k : Key) :
    (if k.ofServer = true ∧ k ∈ serverOrder (s.obfs = lit "tls") (needsTLS s.transport) then s.item k else none) =
      if k.serverPrints = true then s.item k else none := by
  simp only [mem_serverOrder, decide_eq_true_eq]
  by_cases hk : k.serverPrints = true
  · simp only [hk, ofServer_of_serverPrints k hk, true_and, if_true, ite_eq_left_iff]
    intro hacme
    rw [Classical.not_imp] at hacme
    exact (item_acme hacme.2 hacme.1).symm
  · rw [if_neg hk, if_neg fun h => hk h.2.1]

theorem printed_client (k : Key) :
    (if k.ofClient = true ∧ k ∈ clientOrder then s.item k else none) =
      if k.clientPrints = true then s.item k else none := by
  simp only [mem_clientOrder]
  by_cases hk : k.clientPrints = true
  · simp only [hk, ofClient_of_clientPrints k hk, and_self]
  · rw [if_neg hk, if_neg fun h => hk h.2]

theorem decode_doc :
    ((decodeSection s.doc (lit "server") Key.ofServer).bind fun server =>
      (decodeSection s.doc (lit "client") Key.ofClient).map fun client => Config.mk server client) = some s.config := by
  have hne : lit "server" ≠ lit "client" := by decide
  rw [decodeSection_doc, decodeSection_doc, bind_some, map_some, Option.some.injEq, config]
  by_cases hrole : s.role = lit "server"
  · simp only [table, keys, if_pos hrole, true_and, hne, false_and, and_false, if_false, printed_server]
    rfl
  · simp only [table, keys, if_neg hrole, true_and, hne.symm, false_and, and_false, if_false, printed_client]
    rfl

theorem decode_render {isPrint : Char → Bool} {cfg : Config} (h : s.Printable) :
    decode (s.render isPrint) = some cfg ↔ (∀ x ∈ s.strings, Quotable x) ∧ cfg = s.config := by
  rw [decode, bind_eq_some_iff]
  constructor
  · rintro ⟨d, hd, hcfg⟩
    obtain ⟨hq, rfl⟩ := (parse_render h).mp hd
    rw [decode_doc, Option.some.injEq] at hcfg
    exact ⟨hq, hcfg.symm⟩
  · rintro ⟨hq, rfl⟩
    exact ⟨s.doc, (parse_render h).mpr ⟨hq, rfl⟩, decode_doc⟩

end TunnelSpec

end ArangeTun.Tunnels
