import ArangeTun.Go.Lemmas.Quotable
import ArangeTun.Ports.Lemmas.Accepted
import ArangeTun.Tunnels.Edit
import ArangeTun.Tunnels.ParsesBack
import ArangeTun.Tunnels.Lemmas.Save

/-! # What an edit changes -/

namespace ArangeTun.Tunnels

open Go Toml Ports List Option TunnelSpec

variable {isPrint : Char → Bool} {s t t' u : TunnelSpec} {k : Key} {x : Str} {v : Value}

/-! ## What is printed -/

def TunnelSpec.prints (s : TunnelSpec) : Key → Bool :=
  if s.role = lit "server" then Key.serverPrints else Key.clientPrints

def Quoted (o : Option Value) : Prop := ∀ v ∈ o, ∀ x ∈ v.strings, Quotable x

theorem TunnelSpec.mem_keys : k ∈ s.keys ↔
    s.prints k = true ∧ (s.role = lit "server" → k = .acmeDomain ∨ k = .acmeEmail →
      s.obfs = lit "tls" ∨ needsTLS s.transport = true) := by
  unfold keys prints
  split
  next h => simp [mem_serverOrder, h]
  next h => simp [mem_clientOrder, h]

theorem TunnelSpec.mem_written {kv : Key × Value} :
    kv ∈ s.written ↔ s.prints kv.1 = true ∧ s.item kv.1 = some kv.2 := by
  obtain ⟨k, v⟩ := kv
  have hmem : (k, v) ∈ s.written ↔ k ∈ s.keys ∧ s.item k = some v := by
    simp only [written, mem_filterMap, map_eq_some_iff, Prod.mk.injEq]
    constructor
    · rintro ⟨k', hk', v', hv', rfl, rfl⟩
      exact ⟨hk', hv'⟩
    · rintro ⟨hk, hv⟩
      exact ⟨k, hk, v, hv, rfl, rfl⟩
  rw [hmem, mem_keys]
  refine ⟨fun h => ⟨h.1.1, h.2⟩, fun h => ⟨⟨h.1, fun _ hacme => ?_⟩, h.2⟩⟩
  by_contra hno
  have hnone := item_acme hno hacme
  rw [h.2] at hnone
  cases hnone

theorem TunnelSpec.strings_quotable : (∀ x ∈ s.strings, Quotable x) ↔ ∀ k, s.prints k = true → Quoted (s.item k) := by
  simp only [strings, forall_mem_flatMap, mem_written]
  exact ⟨fun h k hk v hv => h (k, v) ⟨hk, hv⟩, fun h kv hkv => h kv.1 hkv.1 kv.2 hkv.2⟩

/-! ## What is loaded -/

def TunnelSpec.reloaded (s : TunnelSpec) : TunnelSpec :=
  if s.role = lit "server" then serverSpec s.name (s.sectionFor Key.serverPrints)
  else clientSpec s.name (s.sectionFor Key.clientPrints)

theorem item_reloaded (hk : s.prints k = true) : s.reloaded.item k = { s with obfs := [] }.item k := by
  unfold prints reloaded at *
  split at hk
  next h => rw [if_pos h, item_serverSpec _ hk]
  next h => rw [if_neg h, item_clientSpec _ hk]

theorem within_mono {c c' : Prop} [Decidable c] [Decidable c'] {o : Option Value} (hc : c → c')
    (h : within c o = some v) : within c' o = some v := by
  unfold within at *
  split at h
  · rwa [if_pos (hc ‹_›)]
  · cases h

theorem item_of_item_plain (h : { s with obfs := [] }.item k = some v) : s.item k = some v := by
  cases k <;> try exact h
  case obfs => cases h
  case tlsSni => exact within_mono (fun htls => absurd htls.symm lit_tls_ne) h
  case acmeDomain => exact within_mono (fun hc => hc.imp_left fun htls => absurd htls.symm lit_tls_ne) h
  case acmeEmail => exact within_mono (fun hc => hc.imp_left fun htls => absurd htls.symm lit_tls_ne) h

theorem reloaded_role (h : s.Made) : s.reloaded.role = s.role ∧ s.reloaded.name = s.name ∧ s.reloaded.obfs = [] := by
  obtain ⟨hrole, -⟩ | ⟨hrole, -⟩ := h.role
  · unfold reloaded
    rw [if_pos hrole]
    exact ⟨hrole.symm, rfl, rfl⟩
  · unfold reloaded
    rw [if_neg (by rw [hrole]; decide +kernel)]
    exact ⟨hrole.symm, rfl, rfl⟩

theorem loadServerSpec_render (h : s.Made) (hl : loadServerSpec s.name (some (s.render isPrint)) = .ok t) :
    (∀ x ∈ s.strings, Quotable x) ∧ t = s.reloaded ∧ s.role = lit "server" := by
  unfold loadServerSpec at hl
  rw [bind_some] at hl
  cases hd : decode (s.render isPrint) with
  | none => rw [hd] at hl; cases hl
  | some cfg =>
    rw [hd] at hl
    obtain ⟨hq, rfl⟩ := (decode_render h.printable).mp hd
    dsimp only at hl
    split at hl
    · cases hl
    next hbind =>
      have hserver : s.role = lit "server" := by
        by_contra hne
        rw [config, if_neg hne] at hbind
        exact hbind rfl
      refine ⟨hq, ?_, hserver⟩
      rw [← Except.ok.inj hl, reloaded, config, if_pos hserver, if_pos hserver]

theorem loadSpec_render (h : s.Made) (hl : loadSpec s.name (some (s.render isPrint)) = .ok t) :
    (∀ x ∈ s.strings, Quotable x) ∧ t = s.reloaded := by
  unfold loadSpec at hl
  rw [if_neg nofun] at hl
  cases hserver : loadServerSpec s.name (some (s.render isPrint)) with
  | ok t' =>
    rw [hserver] at hl
    obtain rfl : t' = t := Except.ok.inj hl
    exact ⟨(loadServerSpec_render h hserver).1, (loadServerSpec_render h hserver).2.1⟩
  | error e =>
    rw [hserver] at hl
    dsimp only at hl
    unfold loadClientSpec loadServerSpec at *
    rw [bind_some] at *
    cases hd : decode (s.render isPrint) with
    | none => rw [hd] at hl; cases hl
    | some cfg =>
      rw [hd] at hl hserver
      obtain ⟨hq, rfl⟩ := (decode_render h.printable).mp hd
      dsimp only at hl
      split at hl
      · cases hl
      next hremote =>
        have hclient : s.role ≠ lit "server" := by
          intro heq
          rw [config, if_pos heq] at hremote
          exact hremote rfl
        refine ⟨hq, ?_⟩
        rw [← Except.ok.inj hl, reloaded, config, if_neg hclient, if_neg hclient]

/-! ## Edits of a spec -/

/-- An edit changes what is printed for the named keys, and leaves a file that can be read exactly when the strings it
was given can be. -/
structure Edits (named : List Key) (readable : Prop) (t t' : TunnelSpec) : Prop where
  name : t'.name = t.name
  role : t'.role = t.role
  obfs : t'.obfs = t.obfs
  frame : ∀ k ∉ named, t'.item k = t.item k
  strings : (∀ k, t.prints k = true → Quoted (t.item k)) →
    ((∀ k ∈ named, t.prints k = true → Quoted (t'.item k)) ↔ readable)

@[simp] theorem quoted_none : Quoted none := by rintro v ⟨⟩

@[simp] theorem quoted_str : Quoted (some (.str x)) ↔ Quotable x := by simp [Quoted, Value.strings]

@[simp] theorem quoted_strs {l : List Str} : Quoted (some (.strs l)) ↔ ∀ x ∈ l, Quotable x := by
  simp [Quoted, Value.strings]

@[simp] theorem quoted_int {n : Int} : Quoted (some (.int n)) := by simp [Quoted, Value.strings]

@[simp] theorem quoted_bool {b : Bool} : Quoted (some (.bool b)) := by simp [Quoted, Value.strings]

theorem quoted_within {c : Prop} [Decidable c] {o : Option Value} (h : Quoted o) : Quoted (within c o) := by
  unfold within
  split
  · exact h
  · exact quoted_none

@[simp] theorem quoted_nonemptyList {l : List Str} : Quoted (nonemptyList l) ↔ ∀ x ∈ l, Quotable x := by
  cases l with
  | nil => simp [nonemptyList, within]
  | cons y l => simp [nonemptyList, within]

theorem TunnelSpec.prints_of_role (h : t'.role = t.role) : t'.prints = t.prints := by
  unfold prints
  rw [h]

namespace Edits

variable {named named' : List Key} {readable readable' : Prop}

theorem refl : Edits [] True t t := ⟨rfl, rfl, rfl, fun _ _ => rfl, fun _ => by simp⟩

theorem congr (h : Edits named readable t t') (hr : readable ↔ readable') : Edits named readable' t t' :=
  ⟨h.name, h.role, h.obfs, h.frame, fun hq => (h.strings hq).trans hr⟩

theorem trans (h : Edits named readable t t') (h' : Edits named' readable' t' u) (hd : ∀ k ∈ named, k ∉ named') :
    Edits (named ++ named') (readable ∧ readable') t u where
  name := h'.name.trans h.name
  role := h'.role.trans h.role
  obfs := h'.obfs.trans h.obfs
  frame k hk := by
    rw [mem_append, not_or] at hk
    rw [h'.frame k hk.2, h.frame k hk.1]
  strings hq := by
    have hprints : t'.prints = t.prints := prints_of_role h.role
    have hfirst : (∀ k ∈ named, t.prints k = true → Quoted (u.item k)) ↔ readable := by
      rw [← h.strings hq]
      exact forall₂_congr fun k hk => by rw [h'.frame k (hd k hk)]
    -- what the first edit leaves can be quoted, if its own strings can
    have hbetween : readable → ∀ k, t'.prints k = true → Quoted (t'.item k) := by
      intro hr k hk
      rw [hprints] at hk
      by_cases hmem : k ∈ named
      · exact (h.strings hq).mpr hr k hmem hk
      · rw [h.frame k hmem]
        exact hq k hk
    simp only [forall_mem_append]
    rw [hfirst]
    refine and_congr_right fun hr => ?_
    rw [← h'.strings (hbetween hr), hprints]

end Edits

/-! ## Each of them -/

theorem quotable_of_validPort {p : Str} (h : validPort p = true) : Quotable p := by
  obtain ⟨n, hn, -, -⟩ := validPort_iff.mp h
  exact quotable_of_graphic fun b hb => graphic_of_numeral (atoi_mem hn hb)

theorem trimBrackets_split (x : Str) :
    ∃ l r, x = l ++ (trimBrackets x ++ r) ∧ (∀ b ∈ l, b = byte '[' ∨ b = byte ']') ∧
      ∀ b ∈ r, b = byte '[' ∨ b = byte ']' := by
  unfold trimBrackets
  dsimp only
  generalize hp : (fun b : UInt8 => decide (b = byte '[' ∨ b = byte ']')) = p
  have hof : ∀ b, p b = true → b = byte '[' ∨ b = byte ']' := by
    intro b hb
    rw [← hp] at hb
    exact of_decide_eq_true hb
  refine ⟨x.takeWhile p, ((x.dropWhile p).reverse.takeWhile p).reverse, ?_, fun b hb => hof b (mem_takeWhile_imp hb),
    fun b hb => hof b (mem_takeWhile_imp (mem_reverse.mp hb))⟩
  rw [List.rdropWhile, ← reverse_append, takeWhile_append_dropWhile, reverse_reverse,
    takeWhile_append_dropWhile]

theorem quotable_trimBrackets : Quotable (trimBrackets x) ↔ Quotable x := by
  have hg : ∀ b : UInt8, b = byte '[' ∨ b = byte ']' → Graphic b := by
    rintro b (rfl | rfl) <;> decide
  obtain ⟨l, r, he, hl, hr⟩ := trimBrackets_split x
  conv_rhs => rw [he]
  rw [quotable_graphic_append fun b hb => hg b (hl b hb), quotable_append_graphic fun b hb => hg b (hr b hb)]

theorem quotable_addrHost {addr fallback : Str} (ha : Quotable addr) (hf : Quotable fallback) :
    Quotable (addrHost addr fallback) := by
  unfold addrHost
  split
  next h p hs =>
    split
    · exact ((quotable_splitHostPort hs).mp ha).1
    · exact hf
  next => exact hf

theorem editAddress_edits {host tunnelPort : Str} (h : editAddress t host tunnelPort = .ok t') :
    Edits (if tunnelPort = [] ∧ host = [] then [] else [.bindAddr, .remoteAddr])
      (host ≠ [] → Quotable (trimSpace host)) t t' ∧ t'.token = t.token := by
  unfold editAddress at h
  split at h
  next hnone =>
    cases h
    rw [if_pos hnone]
    exact ⟨Edits.refl.congr (by simp [hnone.2]), rfl⟩
  next hsome =>
    rw [if_neg hsome]
    rw [check_bind_eq_ok, require_eq_ok] at h
    obtain ⟨hport, h⟩ := h
    have hname : ∀ y z, ∀ k ∉ [Key.bindAddr, .remoteAddr],
        { t with bindAddr := y, remoteAddr := z }.item k = t.item k := by
      intro y z k hk
      cases k <;> first | rfl | simp at hk
    split at h
    next hrole =>
      rw [check_bind_eq_ok, require_eq_ok] at h
      obtain ⟨hhost, h⟩ := h
      cases h
      refine ⟨⟨rfl, rfl, rfl, hname _ _, fun hq => ?_⟩, rfl⟩
      have hprints : t.prints = Key.serverPrints := if_pos hrole
      have hvalid : validPort tunnelPort = true := hport.resolve_left fun hempty => hsome ⟨hempty, hhost⟩
      have hbind : Quotable t.bindAddr := quoted_str.mp (hq .bindAddr (by rw [hprints]; rfl))
      have hzero : Quotable (lit "0.0.0.0") := quotable_of_graphic (by decide +kernel)
      refine iff_of_true ?_ fun hne => absurd hhost hne
      rw [hprints, forall_mem_cons, forall_mem_singleton]
      refine ⟨fun _ => quoted_str.mpr ?_, fun hprinted => by cases hprinted⟩
      exact (quotable_joinHostPort (quotable_of_validPort hvalid)).mpr (quotable_addrHost hbind hzero)
    next hrole =>
      rw [check_bind_eq_ok, require_eq_ok] at h
      obtain ⟨⟨hne, hvalid⟩, h⟩ := h
      cases h
      refine ⟨⟨rfl, rfl, rfl, hname _ _, fun hq => ?_⟩, rfl⟩
      have hprints : t.prints = Key.clientPrints := if_neg hrole
      have hremote : Quotable t.remoteAddr := quoted_str.mp (hq .remoteAddr (by rw [hprints]; rfl))
      rw [hprints, forall_mem_cons, forall_mem_singleton]
      refine (and_iff_right fun hprinted => by cases hprinted).trans (forall_prop_of_true rfl |>.trans ?_)
      refine quoted_str.trans ((quotable_joinHostPort (quotable_of_validPort hvalid)).trans ?_)
      by_cases hhost : host = []
      · rw [if_neg (not_not_intro hhost)]
        exact iff_of_true (quotable_addrHost hremote quotable_nil) fun hne => absurd hhost hne
      · rw [if_pos hhost, quotable_trimBrackets]
        exact ⟨fun hq _ => hq, fun hq => hq hhost⟩

theorem editPorts_edits {ports : List Str} (h : editPorts t ports = .ok t') :
    Edits (if ports = [] then [] else [.ports]) (∀ p ∈ visiblePorts ports t.token, Quotable p) t t' := by
  unfold editPorts at h
  split at h
  next hnone =>
    cases h
    rw [if_pos hnone, hnone]
    exact Edits.refl.congr (by simp [visiblePorts])
  next hsome =>
    rw [if_neg hsome]
    simp only [check_bind_eq_ok, require_eq_ok] at h
    obtain ⟨hrole, -, -, h⟩ := h
    cases h
    have hprints : t.prints = Key.serverPrints := if_pos hrole
    refine ⟨rfl, rfl, rfl, fun k hk => ?_, fun hq => ?_⟩
    · cases k <;> first | rfl | simp at hk
    · have hports : ∀ p ∈ t.ports, Quotable p := quoted_strs.mp (hq .ports (by rw [hprints]; rfl))
      rw [hprints, forall_mem_singleton]
      refine (forall_prop_of_true rfl).trans (quoted_strs.trans ?_)
      rw [forall_mem_append]
      exact and_iff_left fun p hp => hports p (mem_of_mem_filter hp)

theorem editTunnel_edits {host tunnelPort : Str} {ports : List Str} (h : editTunnel t host tunnelPort ports = .ok t') :
    Edits ((if tunnelPort = [] ∧ host = [] then [] else [.bindAddr, .remoteAddr]) ++ if ports = [] then [] else [.ports])
      ((host ≠ [] → Quotable (trimSpace host)) ∧ ∀ p ∈ visiblePorts ports t.token, Quotable p) t t' := by
  unfold editTunnel at h
  obtain ⟨u, haddr, h⟩ := bind_eq_ok.mp h
  obtain ⟨u', hports, h⟩ := bind_eq_ok.mp h
  rw [check_bind_eq_ok] at h
  obtain rfl : u' = t' := Except.ok.inj h.2
  obtain ⟨haddr, htoken⟩ := editAddress_edits haddr
  rw [← htoken]
  refine haddr.trans (editPorts_edits hports) fun k hk hk' => ?_
  split at hk' <;> split at hk <;> simp_all

theorem quotable_bracketed {c : Prop} [Decidable c] :
    Quotable (if c then lit "[" ++ x ++ lit "]" else x) ↔ Quotable x := by
  split
  · rw [append_assoc, quotable_graphic_append (by decide), quotable_append_graphic (by decide)]
  · rfl

theorem fallbackEntry_quotable {primaryPort a full : Str} (h : fallbackEntry primaryPort a = .ok full) :
    Quotable full ↔ Quotable a := by
  unfold fallbackEntry at h
  cases hs : splitHostPort a with
  | none =>
    simp only [hs, getD_none, check_bind_eq_ok, require_eq_ok] at h
    obtain ⟨-, hvalid, -, h⟩ := h
    cases h
    rw [quotable_joinHostPort (quotable_of_validPort hvalid), quotable_trimBrackets, quotable_bracketed]
  | some hp =>
    obtain ⟨host, port⟩ := hp
    simp only [hs, getD_some, check_bind_eq_ok, require_eq_ok] at h
    obtain ⟨-, hvalid, -, h⟩ := h
    cases h
    rw [quotable_joinHostPort (quotable_of_validPort hvalid), quotable_trimBrackets, quotable_bracketed,
      quotable_splitHostPort hs]
    have hport : Quotable port := by
      split at hvalid
      next hempty => rw [hempty]; exact quotable_nil
      next => exact quotable_of_validPort hvalid
    exact (and_iff_left hport).symm

theorem fallbackEntries_quotable {primaryPort : Str} {seen as clean : List Str}
    (h : fallbackEntries primaryPort seen as = .ok clean) (hseen : ∀ x ∈ seen, Quotable x) :
    (∀ x ∈ clean, Quotable x) ↔ ∀ a ∈ as, trimSpace a ≠ [] → Quotable (trimSpace a) := by
  induction as generalizing seen clean with
  | nil =>
    cases h
    simp
  | cons a as ih =>
    unfold fallbackEntries at h
    rw [forall_mem_cons]
    split at h
    next hempty => simp only [hempty, ne_eq, not_true_eq_false, false_imp_iff, true_and, ih h hseen]
    next hsome =>
      obtain ⟨full, hfull, h⟩ := bind_eq_ok.mp h
      have hq := fallbackEntry_quotable hfull
      split at h
      next hmem =>
        rw [ih h hseen]
        exact (and_iff_right fun _ => hq.mp (hseen full hmem)).symm
      next hnew =>
        obtain ⟨clean', hclean', h⟩ := bind_eq_ok.mp h
        cases h
        rw [forall_mem_cons, hq, forall_prop_of_true hsome]
        refine and_congr_right fun hqa => ih hclean' ?_
        exact forall_mem_cons.mpr ⟨hq.mpr hqa, hseen⟩

theorem setFallbackAddrs_edits {addrs : List Str} (h : setFallbackAddrs t addrs = .ok t') :
    Edits [.fallbackAddrs] (∀ a ∈ addrs, trimSpace a ≠ [] → Quotable (trimSpace a)) t t' := by
  unfold setFallbackAddrs at h
  rw [check_bind_eq_ok, require_eq_ok] at h
  obtain ⟨hrole, h⟩ := h
  obtain ⟨clean, hclean, h⟩ := bind_eq_ok.mp h
  cases h
  have hprints : t.prints = Key.clientPrints := if_neg (by rw [hrole]; decide +kernel)
  refine ⟨rfl, rfl, rfl, fun k hk => ?_, fun hq => ?_⟩
  · cases k <;> first | rfl | simp at hk
  · have hremote : Quotable t.remoteAddr := quoted_str.mp (hq .remoteAddr (by rw [hprints]; rfl))
    rw [hprints, forall_mem_singleton]
    refine (forall_prop_of_true rfl).trans (quoted_nonemptyList.trans ?_)
    exact fallbackEntries_quotable hclean (by simpa using hremote.trimSpace)

theorem Edits.of_quoted {named : List Key} (hname : t'.name = t.name) (hrole : t'.role = t.role) (hobfs : t'.obfs = t.obfs)
    (hframe : ∀ k ∉ named, t'.item k = t.item k) (hq : ∀ k ∈ named, Quoted (t'.item k)) : Edits named True t t' :=
  ⟨hname, hrole, hobfs, hframe, fun _ => iff_of_true (fun k hk _ => hq k hk) trivial⟩

theorem setLoadBalance_edits {on : Bool} (h : setLoadBalance t on = .ok t') : Edits [.loadBalance] True t t' := by
  simp only [setLoadBalance, check_bind_eq_ok, require_eq_ok] at h
  obtain ⟨-, -, -, h⟩ := h
  cases h
  refine .of_quoted rfl rfl rfl (fun k hk => ?_) ?_
  · cases k <;> first | rfl | simp at hk
  · rw [forall_mem_singleton]
    exact quoted_within quoted_bool

theorem setProxyProtocol_edits {on : Bool} (h : setProxyProtocol t on = .ok t') : Edits [.proxyProtocol] True t t' := by
  simp only [setProxyProtocol, check_bind_eq_ok, require_eq_ok] at h
  obtain ⟨-, -, -, h⟩ := h
  cases h
  refine .of_quoted rfl rfl rfl (fun k hk => ?_) ?_
  · cases k <;> first | rfl | simp at hk
  · rw [forall_mem_singleton]
    exact quoted_within quoted_bool

theorem setLimits_edits {conns mbps : Int} (h : setLimits t conns mbps = .ok t') :
    Edits [.maxConnections, .bandwidthMbps] True t t' := by
  simp only [setLimits, check_bind_eq_ok, require_eq_ok] at h
  obtain ⟨-, -, h⟩ := h
  cases h
  refine .of_quoted rfl rfl rfl (fun k hk => ?_) ?_
  · cases k <;> first | rfl | simp at hk
  · rw [forall_mem_cons, forall_mem_singleton]
    exact ⟨quoted_within quoted_int, quoted_within quoted_int⟩

theorem setMSS_edits {mss : Int} (h : setMSS t mss = .ok t') : Edits [.mss] True t t' := by
  simp only [setMSS, check_bind_eq_ok, require_eq_ok] at h
  obtain ⟨-, -, h⟩ := h
  cases h
  refine .of_quoted rfl rfl rfl (fun k hk => ?_) ?_
  · cases k <;> first | rfl | simp at hk
  · rw [forall_mem_singleton]
    exact quoted_within quoted_int

theorem ports_edits {ports : List Str} (h : (∀ p ∈ t.ports, Quotable p) → ∀ p ∈ ports, Quotable p)
    (hrole : t.role = lit "server") : Edits [.ports] True t { t with ports := ports } := by
  have hprints : t.prints = Key.serverPrints := if_pos hrole
  refine ⟨rfl, rfl, rfl, fun k hk => ?_, fun hq => iff_of_true ?_ trivial⟩
  · cases k <;> first | rfl | simp at hk
  · have hports : ∀ p ∈ t.ports, Quotable p := quoted_strs.mp (hq .ports (by rw [hprints]; rfl))
    rw [forall_mem_singleton]
    exact fun _ => quoted_strs.mpr (h hports)

theorem quotable_telegramMapping (port : Int) : Quotable (telegramMapping port) := by
  have hfixed : ∀ u ∈ [lit "127.0.0.1:", telegramPortSuffix], ∀ b ∈ u, Graphic b := by decide +kernel
  refine quotable_of_graphic fun b hb => ?_
  simp only [telegramMapping, mem_append] at hb
  obtain (hb | hb) | hb := hb
  · exact hfixed _ (by simp) b hb
  · exact graphic_of_numeral (itoa_mem hb)
  · exact hfixed _ (by simp) b hb

theorem quotable_socksMapping (exposed : Nat) (token : Str) : Quotable (socksMapping exposed token) := by
  have hfixed : ∀ b ∈ lit "=127.0.0.1:", Graphic b := by decide +kernel
  refine quotable_of_graphic fun b hb => ?_
  simp only [socksMapping, loopbackSuffix, mem_append] at hb
  obtain hb | hb | hb := hb
  · exact graphic_of_numeral (itoa_mem hb)
  · exact hfixed b hb
  · exact graphic_of_numeral (itoa_mem hb)

theorem findTelegram_quotable {ports ports' : List Str} {port : Int} (h : findTelegram ports = .bare port ports')
    (hq : ∀ p ∈ ports, Quotable p) : ∀ p ∈ ports', Quotable p := by
  induction ports generalizing ports' with
  | nil => cases h
  | cons p ps ih =>
    rw [forall_mem_cons] at hq
    unfold findTelegram at h
    split at h
    next n hn =>
      split at h
      next hbound =>
        cases h
        refine forall_mem_cons.mpr ⟨?_, hq.2⟩
        unfold boundMapping at *
        split at hbound
        · exact absurd rfl hbound
        · rw [if_neg ‹_›]
          split
          · exact quotable_nil
          · exact quotable_telegramMapping _
      next => cases h
    next hn =>
      split at h
      next port'' ps' hps =>
        cases h
        exact forall_mem_cons.mpr ⟨hq.1, ih hps hq.2⟩
      next hfound => exact absurd h (hfound _ _)

end ArangeTun.Tunnels
