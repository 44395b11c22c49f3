import ArangeTun.Ports.Lemmas.Target
import ArangeTun.Tunnels.Lemmas.Edits
import ArangeTun.Tunnels.WebEdit

/-! # A web edit without changes -/

namespace ArangeTun.Tunnels

open Go Toml Ports List Option TunnelSpec Key

/-! ## What the form makes of a tunnel -/

namespace TunnelSpec

variable (s : TunnelSpec)

structure Sound : Prop where
  name : validName s.name = true
  transport : validTransport s.transport = true
  obfs : s.obfs = [] ∨ (s.obfs = lit "noise" ∨ s.obfs = lit "tls") ∧ isReverseProxy s.transport = true
  token : trimSpace s.token ≠ []

def Plain : Prop :=
  s.preset ≠ [] ∧ s.mss ≤ 0 ∧ s.transport ≠ lit "spoof" ∧
    (s.role = lit "server" → s.maxConnections ≤ 0 ∧ s.bandwidthMbps ≤ 0)

instance : Decidable s.Plain := inferInstanceAs (Decidable (_ ∧ _))

def basePreset : Str := if trimSpace s.preset = [] then presetTurbo else trimSpace s.preset

/-- The pair that the program makes itself: it stands in for a certificate of Let's Encrypt, and every certificate of its
directory is taken for it. -/
def OwnPair : Prop := s.acmeDomain ≠ [] ∨ s.tlsCert = [] ∨ certDir ++ lit "/" <+: s.tlsCert

instance : Decidable s.OwnPair := inferInstanceAs (Decidable (_ ∨ _))

def tidyFallbacks : List Str :=
  ((s.fallbackAddrs.map trimSpace).filter (· ≠ [])).map (fallbackAddr (addrForm s.remoteAddr).2)

/-- The strings without the space around them, and no setting that is of no use to the tunnel. -/
def tidied : TunnelSpec :=
  { s with
    token := trimSpace s.token
    ports := normalizePorts s.ports
    remoteAddr := joinHostPort (trimBrackets (trimSpace (addrForm s.remoteAddr).1)) (addrForm s.remoteAddr).2
    fallbackAddrs := s.tidyFallbacks
    -- balancing and failover are between addresses, and balancing wins
    loadBalance := s.loadBalance && decide (s.tidyFallbacks ≠ [])
    healthFailover := s.healthFailover && !s.loadBalance && decide (s.tidyFallbacks ≠ [])
    tlsSni := if s.role = lit "server" ∧ s.acmeDomain ≠ [] then trimSpace s.acmeDomain else trimSpace s.tlsSni
    acmeDomain := trimSpace s.acmeDomain
    acmeEmail := trimSpace s.acmeEmail
    tlsCert := if s.OwnPair then certPath s.name else trimSpace s.tlsCert
    tlsKey := if s.OwnPair then keyPath s.name else trimSpace s.tlsKey
    edgeIP := trimSpace s.edgeIP
    proxy := if isDatagram s.transport then [] else trimSpace s.proxy
    interface := if isDatagram s.transport then [] else trimSpace s.interface
    localAddr := if isDatagram s.transport then [] else trimSpace s.localAddr
    mss := if supportsMSS s.transport then s.mss else 0
    zeroCopy := s.zeroCopy && decide (s.transport = lit "tcp")
    logLevel := if trimSpace s.logLevel ≠ [] then trimSpace s.logLevel else lit "info"
    logFormat := if trimSpace s.logFormat = lit "json" then lit "json" else []
    spoofSrcIP := if s.spoofSrcPool ≠ [] ∧ s.spoofSrcIP = [] then s.spoofSrcPool.headD [] else s.spoofSrcIP }

def filled (preset : Str) : TunnelSpec :=
  let base := applyPreset s preset
  { s with
    preset := []
    keepAlive := override s.keepAlive base.keepAlive
    heartbeat := override s.heartbeat base.heartbeat
    channelSize := override s.channelSize base.channelSize
    connectionPool := override s.connectionPool base.connectionPool
    muxCon := override s.muxCon base.muxCon
    muxVersion := override s.muxVersion base.muxVersion
    muxFrameSize := override s.muxFrameSize base.muxFrameSize
    muxRecvBuffer := override s.muxRecvBuffer base.muxRecvBuffer
    muxStreamBuffer := override s.muxStreamBuffer base.muxStreamBuffer
    kcpMTU := override s.kcpMTU base.kcpMTU
    kcpInterval := override s.kcpInterval base.kcpInterval
    kcpSndWnd := override s.kcpSndWnd base.kcpSndWnd
    kcpRcvWnd := override s.kcpRcvWnd base.kcpRcvWnd
    kcpDataShards := override s.kcpDataShards base.kcpDataShards
    kcpParityShards := override s.kcpParityShards base.kcpParityShards }

def resaved : TunnelSpec :=
  if s.Plain then applyPreset s.tidied s.basePreset else s.tidied.filled s.basePreset

def BindsAll : Prop := ∃ port, s.bindAddr = joinHostPort (lit "0.0.0.0") port ∨ s.bindAddr = joinHostPort (lit "::") port

def NotInForm (k : Key) : Prop :=
  k ∈ [Key.sniffer, .webPort, .webBind, .soMark, .spoofDstIp] ∨ (k = .bindAddr ∧ ¬ s.BindsAll) ∨
    if s.Plain then k ∈ [Key.acceptUdp, .zeroCopy, .logFormat, .pckInterface, .pckGatewayMac, .pckFlags]
    else k ∈ [Key.kcpResend, .kcpNodelay, .kcpNocongestion, .kcpAcknodelay, .soRcvbuf, .soSndbuf]

end TunnelSpec

variable {isPrint : Char → Bool} {m : Machine} {o : Outcomes} {w : World} {s t u : TunnelSpec} {k : Key}

theorem TunnelSpec.tidied_same (s : TunnelSpec) :
    s.tidied.name = s.name ∧ s.tidied.role = s.role ∧ s.tidied.transport = s.transport ∧ s.tidied.obfs = s.obfs ∧
      s.tidied.bindAddr = s.bindAddr ∧ s.tidied.simpleAuth = s.simpleAuth ∧
      s.tidied.proxyProtocol = s.proxyProtocol := by
  dsimp only [tidied]
  simp only [and_self]

/-! ## The form -/

theorem nameByte_solid {b : UInt8} (h : nameByte b = true) : Solid b := by
  have hall : ∀ w ∈ spaceCodes, ∀ x ∈ w, x.toNat < 45 ∨ 122 < x.toNat := by decide
  intro w hw hb
  have hbounds := nameByte_bounds h
  have hout := hall w hw b hb
  omega

theorem trimSpace_validName {name : Str} (h : validName name = true) : trimSpace name = name :=
  trimSpace_of_solid fun _ hb => nameByte_solid (TunnelSpec.nameByte_of_mem h hb)

theorem trimSpace_validTransport {transport : Str} (h : validTransport transport = true) :
    trimSpace transport = transport := by
  have hall : ∀ t ∈ [lit "tcp", lit "tcpmux", lit "udp", lit "kcp", lit "quic", lit "ws", lit "wss", lit "wsmux",
      lit "wssmux", lit "stealth", lit "xdi", lit "spoof", lit "pck", lit "frp", lit "frpu", lit "rathole",
      lit "ratholeu"], trimSpace t = t := by decide
  exact hall transport (of_decide_eq_true h)

theorem TunnelSpec.Sound.printable (h : s.Sound) : s.Printable := by
  refine ⟨h.name, fun ⟨hobfs, htls⟩ => ?_⟩
  obtain hnone | ⟨-, hkind⟩ := h.obfs
  · exact lit_tls_ne (hobfs.symm.trans hnone)
  · rw [not_needsTLS_of_isReverseProxy hkind] at htls
    cases htls

theorem TunnelSpec.Sound.obfsMode {prints : Key → Bool} (h : s.Sound) (hobfs : prints .obfs = true)
    (hstealth : prints .stealth = false) : (s.sectionFor prints).obfsMode = s.obfs := by
  have hbool : (s.sectionFor prints).bool .stealth = false := by
    rw [bool_sectionFor, hstealth]
    rfl
  have hstr : (s.sectionFor prints).str .obfs = s.obfs := by
    rw [str_sectionFor, if_pos hobfs]
    exact strOf_nonempty _
  unfold Section.obfsMode
  rw [hstr, hbool]
  obtain hnone | ⟨hsome, -⟩ := h.obfs
  · rw [hnone]
    decide
  · rw [if_pos hsome]

section

variable (s) in
def TunnelSpec.serverReq : TunnelRequest := serverForm s.name (s.sectionFor Key.serverPrints)

theorem acmeDomain_printed (h : s.obfs = lit "tls" ∨ needsTLS s.transport = true) :
    (s.sectionFor Key.serverPrints).str .acmeDomain = s.acmeDomain := by
  rw [str_sectionFor]
  exact (congrArg strOf (if_pos h)).trans (strOf_nonempty _)

theorem acmeEmail_printed (h : s.obfs = lit "tls" ∨ needsTLS s.transport = true) (hdomain : s.acmeDomain ≠ []) :
    (s.sectionFor Key.serverPrints).str .acmeEmail = s.acmeEmail := by
  rw [str_sectionFor]
  exact (congrArg strOf ((if_pos h).trans (if_pos hdomain))).trans (strOf_nonempty _)

theorem transport_printed {prints : Key → Bool} (h : prints .transport = true) :
    (s.sectionFor prints).str .transport = s.transport := by
  rw [str_sectionFor, if_pos h]
  rfl

theorem preset_printed {prints : Key → Bool} (h : prints .preset = true) :
    (s.sectionFor prints).str .preset = s.preset := by
  rw [str_sectionFor, if_pos h]
  exact strOf_nonempty _

theorem int_printed {prints : Key → Bool} {n : Int} (h : prints k = true) (hk : s.item k = positive n) :
    (s.sectionFor prints).int k = max n 0 := by
  rw [int_sectionFor, if_pos h, hk]
  exact intOf_positive _

theorem obfsDomain_iff (hs : s.Sound) :
    (s.sectionFor Key.serverPrints).ObfsDomain ↔ s.obfs = lit "tls" ∧ s.acmeDomain ≠ [] := by
  unfold Section.ObfsDomain
  rw [hs.obfsMode rfl rfl]
  refine and_congr_right fun htls => ?_
  rw [acmeDomain_printed (.inl htls)]

theorem tlsModeForm_printed (h : needsTLS s.transport = true) :
    tlsModeForm (s.sectionFor Key.serverPrints) =
      if s.acmeDomain ≠ [] then lit "acme" else if s.OwnPair then lit "self" else lit "existing" := by
  have hcert : (s.sectionFor serverPrints).str .tlsCert = s.tlsCert := by
    rw [str_sectionFor]
    exact congrArg strOf (if_pos h)
  unfold tlsModeForm TunnelSpec.OwnPair
  rw [acmeDomain_printed (.inr h), hcert]
  split
  · rfl
  next hnone =>
    simp only [hnone, false_or]
    split <;> split <;> simp_all

structure Resealed (s u : TunnelSpec) : Prop where
  sni : s.obfs = lit "tls" → u.tlsSni = s.tidied.tlsSni
  domain : s.obfs = lit "tls" ∨ needsTLS s.transport = true → u.acmeDomain = s.tidied.acmeDomain
  email : s.obfs = lit "tls" ∨ needsTLS s.transport = true → s.tidied.acmeDomain ≠ [] →
    u.acmeEmail = s.tidied.acmeEmail
  pair : needsTLS s.transport = true → u.tlsCert = s.tidied.tlsCert ∧ u.tlsKey = s.tidied.tlsKey
  auth : needsTLS s.transport = true → u.simpleAuth = s.simpleAuth

theorem serverReq_tlsMode (h : needsTLS s.transport = true) : s.serverReq.tlsMode =
    if s.acmeDomain ≠ [] then lit "acme" else if s.OwnPair then lit "self" else lit "existing" := by
  rw [← tlsModeForm_printed h]
  exact if_pos ((congrArg needsTLS (transport_printed rfl)).trans h)

theorem serverReq_acme (h : needsTLS s.transport = true) (hdomain : s.acmeDomain ≠ []) :
    s.serverReq.acmeDomain = s.acmeDomain ∧ s.serverReq.acmeEmail = s.acmeEmail := by
  have hmode : tlsModeForm (s.sectionFor serverPrints) = lit "acme" := by
    rw [tlsModeForm_printed h, if_pos hdomain]
  have hboth : needsTLS ((s.sectionFor serverPrints).str .transport) = true ∧
      tlsModeForm (s.sectionFor serverPrints) = lit "acme" := by
    rw [transport_printed rfl]
    exact ⟨h, hmode⟩
  constructor
  · exact (if_pos hboth).trans (acmeDomain_printed (.inr h))
  · exact (if_pos (.inr hboth)).trans (acmeEmail_printed (.inr h) hdomain)

theorem serverReq_existing (h : needsTLS s.transport = true) (hdomain : s.acmeDomain = []) (hown : ¬ s.OwnPair) :
    s.serverReq.tlsCert = s.tlsCert ∧ s.serverReq.tlsKey = s.tlsKey := by
  have hmode : tlsModeForm (s.sectionFor serverPrints) = lit "existing" := by
    rw [tlsModeForm_printed h, if_neg (not_not_intro hdomain), if_neg hown]
  have hboth : needsTLS ((s.sectionFor serverPrints).str .transport) = true ∧
      tlsModeForm (s.sectionFor serverPrints) = lit "existing" := by
    rw [transport_printed rfl]
    exact ⟨h, hmode⟩
  constructor
  · refine (if_pos hboth).trans ?_
    rw [str_sectionFor]
    exact congrArg strOf (if_pos h)
  · refine (if_pos hboth).trans ?_
    rw [str_sectionFor]
    exact congrArg strOf (if_pos h)

theorem Certified.resealed {v : TunnelSpec} (h : Certified s.serverReq v u) (htls : needsTLS s.transport = true)
    (hobfs : s.obfs = []) (hv : v.name = s.name) (hplain : v.acmeDomain = []) :
    Resealed s { u with simpleAuth := s.serverReq.simpleAuth } := by
  have hne : s.obfs ≠ lit "tls" := by
    rw [hobfs]
    exact lit_tls_ne.symm
  have hauth : s.serverReq.simpleAuth = s.simpleAuth := by
    change (s.sectionFor serverPrints).bool .simpleAuth = s.simpleAuth
    rw [bool_sectionFor]
    exact (congrArg boolOf (if_pos htls)).trans (boolOf_flag _)
  have hdomain : s.tidied.acmeDomain = trimSpace s.acmeDomain := by dsimp only [tidied]
  have hemail : s.tidied.acmeEmail = trimSpace s.acmeEmail := by dsimp only [tidied]
  have hwords : ∀ mode ∈ [lit "acme", lit "self", lit "existing"], trimSpace mode = mode ∧ mode ≠ [] := by decide
  have hdiffer : lit "self" ≠ lit "acme" ∧ lit "self" ≠ lit "existing" ∧ lit "existing" ≠ lit "acme" := by
    decide
  have hmode := serverReq_tlsMode htls
  by_cases hnone : s.acmeDomain = []
  · have hempty : s.tidied.acmeDomain = [] := by
      rw [hdomain, hnone]
      rfl
    rw [if_neg (not_not_intro hnone)] at hmode
    by_cases hown : s.OwnPair
    · rw [if_pos hown] at hmode
      have htrim := (congrArg trimSpace hmode).trans (hwords _ (by simp)).1
      cases h with
      | self =>
        refine ⟨fun h => absurd h hne, fun _ => hplain.trans hempty.symm, fun _ h => absurd hempty h, fun _ => ?_,
          fun _ => hauth⟩
        simp only [tidied, if_pos hown, hv, and_self]
      | acme hm => exact absurd (htrim.symm.trans hm) hdiffer.1
      | existing hm => exact absurd (htrim.symm.trans hm) hdiffer.2.1
    · rw [if_neg hown] at hmode
      have htrim := (congrArg trimSpace hmode).trans (hwords _ (by simp)).1
      obtain ⟨hcert, hkey⟩ := serverReq_existing htls hnone hown
      cases h with
      | self hm =>
        obtain hm | hm := hm
        · exact absurd (htrim.symm.trans hm) (hwords _ (by simp)).2
        · exact absurd (htrim.symm.trans hm) hdiffer.2.1.symm
      | acme hm => exact absurd (htrim.symm.trans hm) hdiffer.2.2
      | existing =>
        refine ⟨fun h => absurd h hne, fun _ => hplain.trans hempty.symm, fun _ h => absurd hempty h, fun _ => ?_,
          fun _ => hauth⟩
        simp only [tidied, if_neg hown, hcert, hkey, and_self]
  · rw [if_pos hnone] at hmode
    have htrim := (congrArg trimSpace hmode).trans (hwords _ (by simp)).1
    obtain ⟨hreq, hreqEmail⟩ := serverReq_acme htls hnone
    cases h with
    | self hm =>
      obtain hm | hm := hm
      · exact absurd (htrim.symm.trans hm) (hwords _ (by simp)).2
      · exact absurd (htrim.symm.trans hm) hdiffer.1.symm
    | acme =>
      have hown : s.OwnPair := .inl hnone
      refine ⟨fun h => absurd h hne, fun _ => ?_, fun _ _ => ?_, fun _ => ?_, fun _ => hauth⟩
      · rw [hdomain, ← hreq]
      · rw [hemail, ← hreqEmail]
      · simp only [tidied, if_pos hown, hv, and_self]
    | existing hm => exact absurd (htrim.symm.trans hm) hdiffer.2.2.symm

theorem TunnelSpec.Sound.obfsOf {req : TunnelRequest} (hs : s.Sound) (h : req.obfs = s.obfs) : obfsOf req = s.obfs := by
  have hwords : ∀ mode ∈ [[], lit "noise", lit "tls"], trimSpace mode = mode := by decide
  have hmode : s.obfs = [] ∨ s.obfs = lit "noise" ∨ s.obfs = lit "tls" := hs.obfs.imp_right And.left
  have hsame : trimSpace s.obfs = s.obfs := hwords _ (by simpa using hmode)
  unfold Tunnels.obfsOf
  rw [h, hsame]
  split
  · rfl
  next hnone => exact (hmode.resolve_right hnone).symm

theorem serverReq_obfsOf (hs : s.Sound) : obfsOf s.serverReq = s.obfs := hs.obfsOf (hs.obfsMode rfl rfl)

theorem obfsACME_serverReq (hs : s.Sound) : ObfsACME s.serverReq ↔ s.obfs = lit "tls" ∧ s.acmeDomain ≠ [] := by
  have hmode : s.serverReq.tlsCertMode = if (s.sectionFor serverPrints).ObfsDomain then lit "acme" else [] := rfl
  unfold ObfsACME
  rw [serverReq_obfsOf hs, hmode, ← obfsDomain_iff hs]
  split
  next hdomain =>
    have hrole : s.serverReq.role = lit "server" := by dsimp only [serverReq, serverForm]
    exact iff_of_true ⟨((obfsDomain_iff hs).mp hdomain).1, hrole, by decide⟩ hdomain
  next hdomain =>
    have hnone : Cmd.toLower (trimSpace []) ≠ lit "acme" := by decide
    exact iff_of_false (fun h => hnone h.2.2) hdomain

def TunnelSpec.blankServer (s : TunnelSpec) : TunnelSpec :=
  { name := s.name, role := lit "server", transport := s.transport }

theorem Served.resealed {v : TunnelSpec} (hs : s.Sound) (hrole : s.role = lit "server")
    (hobfs : Obfuscated s.serverReq s.blankServer v) (h : Served m s.serverReq v u) : u.obfs = s.obfs ∧ Resealed s u := by
  cases htls : needsTLS s.transport with
  | true =>
    have hkind : isReverseProxy s.transport = false := by
      by_contra hkind
      rw [not_needsTLS_of_isReverseProxy (Bool.of_not_eq_false hkind)] at htls
      cases htls
    have hnone : s.obfs = [] := hs.obfs.resolve_right fun h => Bool.false_ne_true (hkind.symm.trans h.2)
    cases hobfs with
    | other =>
      obtain ⟨t, ht, rfl⟩ := h.tls htls
      refine ⟨?_, ht.resealed htls hnone rfl rfl⟩
      cases ht <;> exact hnone.symm
    | plain hk => exact absurd hk (by rw [show s.blankServer.transport = s.transport from rfl, hkind]; decide)
    | acme hk => exact absurd hk (by rw [show s.blankServer.transport = s.transport from rfl, hkind]; decide)
  | false =>
    have hnot : ¬ needsTLS s.transport = true := by simp [htls]
    cases hobfs with
    | other hkind =>
      obtain rfl := h.plain htls
      have hnone : s.obfs = [] := hs.obfs.resolve_right fun h => Bool.false_ne_true (hkind.symm.trans h.2)
      have hne : s.obfs ≠ lit "tls" := by
        rw [hnone]
        exact lit_tls_ne.symm
      exact ⟨hnone.symm, fun h => absurd h hne, fun h => absurd h (by simp [hne, htls]),
        fun h => absurd h (by simp [hne, htls]), fun h => absurd h hnot, fun h => absurd h hnot⟩
    | plain hkind hacme =>
      obtain rfl := h.plain htls
      rw [obfsACME_serverReq hs] at hacme
      have hdomain : s.obfs = lit "tls" ∨ needsTLS s.transport = true → s.acmeDomain = [] := by
        rintro (h | h)
        · by_contra hne
          exact hacme ⟨h, hne⟩
        · exact absurd h hnot
      have hempty : s.obfs = lit "tls" ∨ needsTLS s.transport = true → s.tidied.acmeDomain = [] := by
        intro h
        simp only [tidied, hdomain h]
        rfl
      refine ⟨serverReq_obfsOf hs, fun h => ?_, fun h => (hempty h).symm, fun h hne => absurd (hempty h) hne,
        fun h => absurd h hnot, fun h => absurd h hnot⟩
      have hsni : s.serverReq.tlsSni = s.tlsSni := by
        refine (if_neg (mt (obfsDomain_iff hs).mp hacme)).trans ?_
        rw [str_sectionFor]
        exact (congrArg strOf (if_pos h)).trans (strOf_nonempty _)
      have htidy : s.tidied.tlsSni = trimSpace s.tlsSni := if_neg fun h' => h'.2 (hdomain (.inl h))
      simp only [serverFields, hsni, htidy]
    | acme hkind hacme hne =>
      obtain rfl := h.plain htls
      rw [obfsACME_serverReq hs] at hacme
      obtain ⟨hobfs, hdomain⟩ := hacme
      have hdom : (s.sectionFor serverPrints).ObfsDomain := (obfsDomain_iff hs).mpr ⟨hobfs, hdomain⟩
      have hsni : s.serverReq.tlsSni = s.acmeDomain := (if_pos hdom).trans (acmeDomain_printed (.inl hobfs))
      have hemail : s.serverReq.acmeEmail = s.acmeEmail :=
        (if_pos (.inl hdom)).trans (acmeEmail_printed (.inl hobfs) hdomain)
      have htidy : s.tidied.tlsSni = trimSpace s.acmeDomain := if_pos ⟨hrole, hdomain⟩
      refine ⟨serverReq_obfsOf hs, fun _ => ?_, fun _ => ?_, fun _ _ => ?_, fun h => absurd h hnot,
        fun h => absurd h hnot⟩
      · simp only [serverFields, hsni, htidy]
      · simp only [serverFields, tidied, hsni]
      · simp only [serverFields, tidied, hemail]

theorem bindAddr_again (h : s.BindsAll) (hport : validPort (addrForm s.bindAddr).2 = true) :
    joinHostPort (if (addrForm s.bindAddr).1 = lit "::" then lit "::" else lit "0.0.0.0") (addrForm s.bindAddr).2 =
      s.bindAddr := by
  obtain ⟨⟨host, port⟩, hsplit⟩ : ∃ hp, splitHostPort s.bindAddr = some hp := by
    cases hnone : splitHostPort s.bindAddr with
    | none =>
      rw [addrForm, hnone] at hport
      exact absurd hport (by decide)
    | some hp => exact ⟨hp, rfl⟩
  rw [addrForm, hsplit, getD_some]
  dsimp only
  obtain ⟨hcolon, -, hclose, -, hclose', hform⟩ := splitHostPort_eq_some hsplit
  have hplain : byte ':' ∉ lit "0.0.0.0" := by decide
  have hsix : byte ':' ∈ lit "::" := by decide
  obtain ⟨p, hbind | hbind⟩ := h
  · rw [joinHostPort, if_neg hplain, append_assoc] at hbind
    rw [hbind] at hform ⊢
    obtain hopen | ⟨hhost, heq⟩ := hform
    · exact absurd (List.cons.inj hopen).1 (by decide)
    · obtain ⟨rfl, -, rfl⟩ := (append_cons_inj_of_notMem hhost hcolon).mp heq.symm
      rw [if_neg (by decide), joinHostPort, if_neg hplain, append_assoc]
  · rw [joinHostPort, if_pos hsix, append_assoc, append_assoc] at hbind
    rw [hbind] at hform ⊢
    obtain hopen | ⟨hhost, heq⟩ := hform
    · have hrest : byte ']' ∉ byte ':' :: port := by
        rw [mem_cons, not_or]
        exact ⟨by decide, hclose'⟩
      obtain ⟨rfl, -, htail⟩ := (append_cons_inj_of_notMem hclose hrest).mp (List.cons.inj hopen).2.symm
      obtain rfl : port = p := (List.cons.inj htail).2
      rw [if_pos rfl, joinHostPort, if_pos hsix, append_assoc, append_assoc]
    · -- the host would be an opening bracket
      obtain ⟨rfl, -, rfl⟩ := (@append_cons_inj_of_notMem _ host [byte '['] port _ _ _ hhost hcolon).mp heq.symm
      exact absurd (.head _) hcolon

theorem serverReq_bindAddr : s.serverReq.port = (addrForm s.bindAddr).2 ∧
    s.serverReq.ipv6 = decide ((addrForm s.bindAddr).1 = lit "::") := by
  have hbind : (s.sectionFor serverPrints).str .bindAddr = s.bindAddr := by
    rw [str_sectionFor]
    rfl
  rw [← hbind]
  exact ⟨rfl, rfl⟩

theorem serverReq_advanced (hrole : s.role = lit "server") :
    s.serverReq.advanced = if s.Plain then none else some (serverAdvanced (s.sectionFor Key.serverPrints)) := by
  have hpreset : (s.sectionFor serverPrints).str .preset = s.preset := preset_printed rfl
  have htransport : (s.sectionFor serverPrints).str .transport = s.transport := transport_printed rfl
  have hconns : (s.sectionFor serverPrints).int .maxConnections = max s.maxConnections 0 := int_printed rfl rfl
  have hmbps : (s.sectionFor serverPrints).int .bandwidthMbps = max s.bandwidthMbps 0 := int_printed rfl rfl
  have hmss : (s.sectionFor serverPrints).int .mss = max s.mss 0 := int_printed rfl rfl
  have hiff : s.Plain ↔ ¬ (s.preset = [] ∨ 0 < max s.maxConnections 0 ∨ 0 < max s.bandwidthMbps 0 ∨ 0 < max s.mss 0 ∨
      s.transport = lit "spoof") := by
    simp only [TunnelSpec.Plain, hrole, forall_const, lt_max_iff, lt_irrefl, or_false, not_or, not_lt, ne_eq]
    tauto
  simp only [serverReq, serverForm, hpreset, hconns, hmbps, hmss, htransport, hiff, ite_not]

end

/-! ## The tuning -/

def Key.ofPart : Key → Bool
  | .bindAddr | .remoteAddr | .fallbackAddrs | .transport | .token | .obfs | .tlsSni | .acmeDomain | .acmeEmail
  | .loadBalance | .healthFailover | .retryInterval | .dialTimeout | .tlsCert | .tlsKey | .simpleAuth | .proxyProtocol
  | .ports | .edgeIp | .proxy | .localAddr | .interface => true
  | _ => false

def TunnelSpec.untuned (u : TunnelSpec) : TunnelSpec where
  name := u.name
  role := u.role
  transport := u.transport
  bindAddr := u.bindAddr
  remoteAddr := u.remoteAddr
  token := u.token
  ports := u.ports
  loadBalance := u.loadBalance
  healthFailover := u.healthFailover
  fallbackAddrs := u.fallbackAddrs
  proxyProtocol := u.proxyProtocol
  obfs := u.obfs
  tlsSni := u.tlsSni
  tlsCert := u.tlsCert
  tlsKey := u.tlsKey
  acmeDomain := u.acmeDomain
  acmeEmail := u.acmeEmail
  edgeIP := u.edgeIP
  simpleAuth := u.simpleAuth
  proxy := u.proxy
  localAddr := u.localAddr
  interface := u.interface

theorem item_applyPreset_part (preset : Str) (hk : k.ofPart = true) : (applyPreset u preset).item k = u.item k := by
  cases k <;> cases hk <;> rfl

theorem item_applyAdvanced_part (a : AdvancedTuning) (hk : k.ofPart = true) : (applyAdvanced u a).item k = u.item k := by
  cases k <;> cases hk <;> rfl

theorem item_tuned_part (req : TunnelRequest) (preset : Str) (hk : k.ofPart = true) :
    (tuned req u preset).item k = u.item k := by
  unfold tuned
  split
  · rw [item_applyAdvanced_part _ hk, item_applyPreset_part _ hk]
  · exact item_applyPreset_part _ hk

theorem item_filled_part (preset : Str) (hk : k.ofPart = true) : (u.filled preset).item k = u.item k := by
  unfold filled
  generalize applyPreset u preset = v
  cases k <;> cases hk <;> rfl

theorem item_resaved_part (hk : k.ofPart = true) : s.resaved.item k = s.tidied.item k := by
  unfold resaved
  split
  · exact item_applyPreset_part _ hk
  · exact item_filled_part _ hk

theorem TunnelSpec.prints_limits (h : s.prints .maxConnections = true ∨ s.prints .bandwidthMbps = true) :
    s.role = lit "server" := by
  by_contra hrole
  simp only [prints, if_neg hrole] at h
  simp [clientPrints] at h

theorem positive_of_nonpos {n : Int} (h : n ≤ 0) : positive n = none := if_neg (Int.not_lt.mpr h)

theorem item_plain (hplain : s.Plain) (preset : Str) (htransport : u.transport = s.transport) (hk : k.ofPart = false)
    (hp : s.prints k = true) (hform : ¬ s.NotInForm k) :
    (applyPreset u.untuned preset).item k = (applyPreset s.tidied preset).item k := by
  simp only [TunnelSpec.NotInForm, if_pos hplain, not_or] at hform
  obtain ⟨hnever, -, hcustom⟩ := hform
  obtain ⟨-, hmss, hspoof, hlimits⟩ := hplain
  cases k <;> cases hk
  all_goals
    dsimp only [item, applyPreset, applyKCPPreset, untuned, tidied]
    try simp only [htransport, hspoof, within_false]
  case mss =>
    rw [positive_of_nonpos (Int.le_refl 0), positive_of_nonpos]
    split
    · exact hmss
    · exact Int.le_refl 0
  case maxConnections => exact (positive_of_nonpos (hlimits (prints_limits (.inl hp))).1).symm
  case bandwidthMbps => exact (positive_of_nonpos (hlimits (prints_limits (.inr hp))).2).symm
  -- what is left are the settings that the form does not have
  all_goals first | exact absurd (by decide) hnever | exact absurd (by decide) hcustom

@[simp] theorem override_max (n old : Int) : override (max n 0) old = override n old := by
  unfold override
  by_cases h : 0 < n
  · rw [max_eq_left (Int.le_of_lt h)]
  · rw [if_neg h, if_neg (by omega)]

@[simp] theorem positive_override (n : Int) : positive (override n 0) = positive n := by
  unfold override
  split
  · rfl
  next h => rw [positive_of_nonpos (Int.le_refl 0), positive_of_nonpos (Int.not_lt.mp h)]

theorem positive_override_if {c : Prop} [Decidable c] (n : Int) :
    positive (if c then override n 0 else 0) = positive (if c then n else 0) := by
  split
  · exact positive_override n
  · rfl

theorem item_custom {prints : Key → Bool} {advanced : Section → AdvancedTuning} (hcustom : ¬ s.Plain) (preset : Str)
    (htransport : u.transport = s.transport) (hk : k.ofPart = false) (hp : prints k = true) (hform : ¬ s.NotInForm k)
    (hside : u.role = lit "server" ∧ prints = Key.serverPrints ∧ advanced = serverAdvanced ∨
      u.role ≠ lit "server" ∧ prints = Key.clientPrints ∧ advanced = clientAdvanced) :
    (applyAdvanced (applyPreset u.untuned preset) (advanced (s.sectionFor prints))).item k =
      (s.tidied.filled preset).item k := by
  simp only [NotInForm, if_neg hcustom, not_or] at hform
  obtain ⟨hnever, -, hplain⟩ := hform
  obtain ⟨hrole, rfl, rfl⟩ | ⟨hrole, rfl, rfl⟩ := hside
  all_goals
    cases k <;> cases hk <;> cases hp
    first | case inl.logLevel.refl.refl => rfl | case inr.logLevel.refl.refl => rfl
    all_goals
      dsimp only [TunnelSpec.item, applyAdvanced, applyPreset, applyKCPPreset, untuned, tidied,
        filled, serverAdvanced, clientAdvanced, advancedForm]
      try simp only [str_sectionFor, int_sectionFor, bool_sectionFor, strs_sectionFor, Key.serverPrints,
        Key.clientPrints, if_true]
      try dsimp only [TunnelSpec.item]
      try simp +contextual [htransport, hrole, kept, Bool.and_comm, positive_override_if]
    -- what is left are the settings that the form does not have
    all_goals first | exact absurd (by decide) hnever | exact absurd (by decide) hplain

/-! ## The parts -/

structure ServerParts (m : Machine) (s u : TunnelSpec) : Prop where
  eq : ∃ sni domain email cert key auth, u =
    { serverFields m { s.blankServer with obfs := s.obfs, tlsSni := sni } s.serverReq with
      tlsCert := cert, tlsKey := key, acmeDomain := domain, acmeEmail := email, simpleAuth := auth }
  port : validPort (addrForm s.bindAddr).2 = true
  resealed : Resealed s u

theorem Served.parts {v : TunnelSpec} (hs : s.Sound) (hrole : s.role = lit "server")
    (hobfs : Obfuscated s.serverReq s.blankServer v) (h : Served m s.serverReq v u) : ServerParts m s u := by
  obtain ⟨hsame, hseal⟩ := h.resealed hs hrole hobfs
  refine ⟨?_, ?_, hseal⟩
  · obtain ⟨obfs, sni, domain, email, rfl, -⟩ := hobfs.frame
    obtain ⟨cert, key, domain', email', auth, rfl⟩ := h.frame
    obtain rfl : obfs = s.obfs := hsame
    exact ⟨sni, domain', email', cert, key, auth, rfl⟩
  · have hport := h.port
    rwa [serverReq_bindAddr.1] at hport

theorem ServerParts.item (hs : s.Sound) (h : ServerParts m s u) (hk : k.ofPart = true) (hp : k.serverPrints = true)
    (hform : ¬ s.NotInForm k) : u.item k = s.tidied.item k := by
  obtain ⟨⟨sni, domain, email, cert, key, auth, rfl⟩, hport, hseal⟩ := h
  have hsni : s.obfs = lit "tls" → sni = s.tidied.tlsSni := hseal.sni
  have hdomain : s.obfs = lit "tls" ∨ needsTLS s.transport = true → domain = s.tidied.acmeDomain := hseal.domain
  have hemail : s.obfs = lit "tls" ∨ needsTLS s.transport = true → s.tidied.acmeDomain ≠ [] →
    email = s.tidied.acmeEmail := hseal.email
  have hpair : needsTLS s.transport = true → cert = s.tidied.tlsCert ∧ key = s.tidied.tlsKey := hseal.pair
  have hauth : needsTLS s.transport = true → auth = s.simpleAuth := hseal.auth
  have hproxy : supportsProxyProtocol s.transport = true → s.serverReq.proxyProtocol = s.proxyProtocol := by
    intro hsupports
    change (s.sectionFor serverPrints).bool .proxyProtocol = s.proxyProtocol
    rw [bool_sectionFor]
    exact congrArg boolOf (if_pos hsupports)
  cases k <;> cases hk <;> cases hp
  case token => exact congrArg (fun x => some (Value.str x)) (if_pos hs.token)
  case ports => rfl
  all_goals
    dsimp only [item, serverFields, blankServer]
    simp only [s.tidied_same]
  case bindAddr =>
    have hbind : s.BindsAll := by
      by_contra hnot
      exact hform (.inr (.inl ⟨rfl, hnot⟩))
    conv_rhs => rw [← bindAddr_again hbind hport]
    simp only [serverReq_bindAddr, decide_eq_true_eq]
  case acmeEmail =>
    refine within_congr rfl fun htls => ?_
    rw [hdomain htls]
    exact within_congr rfl fun hne => by rw [hemail htls hne]
  all_goals simp +contextual [hsni, hdomain, hpair, hauth, hproxy]

def TunnelSpec.clientReq (s : TunnelSpec) : TunnelRequest := clientForm s.name (s.sectionFor Key.clientPrints)

def TunnelSpec.blankClient (s : TunnelSpec) : TunnelSpec :=
  { name := s.name, role := lit "client", transport := s.transport }

structure ClientFields (s : TunnelSpec) : Prop where
  token : s.clientReq.token = s.token
  addr : s.clientReq.serverHost = (addrForm s.remoteAddr).1 ∧ s.clientReq.serverPort = (addrForm s.remoteAddr).2
  edge : isWS s.transport = true → s.clientReq.edgeIP = s.edgeIP
  auth : needsTLS s.transport = true → s.clientReq.simpleAuth = s.simpleAuth
  outbound : s.clientReq.proxy = s.proxy ∧ s.clientReq.interface = s.interface ∧ s.clientReq.localAddr = s.localAddr
  fallbacks : fallbacksOf s.clientReq = s.tidyFallbacks
  balance : s.clientReq.loadBalance = s.loadBalance ∧ s.clientReq.healthFailover = s.healthFailover
  sni : s.obfs = lit "tls" → s.clientReq.tlsSni = s.tlsSni

theorem clientFields_form (s : TunnelSpec) : ClientFields s where
  token := @str_sectionFor s Key.clientPrints .token
  addr := by
    have haddr : (s.sectionFor clientPrints).str .remoteAddr = s.remoteAddr := str_sectionFor
    rw [← haddr]
    exact ⟨rfl, rfl⟩
  edge h := str_sectionFor.trans ((congrArg strOf (if_pos h)).trans (strOf_nonempty _))
  auth h := bool_sectionFor.trans ((congrArg boolOf (if_pos h)).trans (boolOf_flag _))
  outbound :=
    ⟨str_sectionFor.trans (strOf_nonempty _), str_sectionFor.trans (strOf_nonempty _),
      str_sectionFor.trans (strOf_nonempty _)⟩
  fallbacks := by
    have haddr : (s.sectionFor clientPrints).str .remoteAddr = s.remoteAddr := str_sectionFor
    have hlist : (s.sectionFor clientPrints).strs .fallbackAddrs = s.fallbackAddrs :=
      strs_sectionFor.trans (strsOf_nonemptyList _)
    unfold fallbacksOf tidyFallbacks
    rw [← haddr, ← hlist]
    rfl
  balance := ⟨bool_sectionFor.trans (boolOf_flag _), bool_sectionFor.trans (boolOf_flag _)⟩
  sni h := str_sectionFor.trans ((congrArg strOf (if_pos h)).trans (strOf_nonempty _))

structure ClientParts (s u : TunnelSpec) : Prop where
  eq : ∃ sni domain email, u =
    clientFields { s.blankClient with obfs := s.obfs, tlsSni := sni, acmeDomain := domain, acmeEmail := email }
      s.clientReq
  sni : s.obfs = lit "tls" → u.tlsSni = trimSpace s.tlsSni

theorem clientReq_obfsOf (hs : s.Sound) : obfsOf s.clientReq = s.obfs := hs.obfsOf (hs.obfsMode rfl rfl)

theorem Dialled.parts {v : TunnelSpec} (hs : s.Sound) (hobfs : Obfuscated s.clientReq s.blankClient v)
    (h : Dialled s.clientReq v u) : ClientParts s u := by
  have hnone : isReverseProxy s.transport = false → s.obfs = [] :=
    fun hkind => hs.obfs.resolve_right fun h => Bool.false_ne_true (hkind.symm.trans h.2)
  obtain rfl := h.eq
  cases hobfs with
  | other hkind =>
    have hempty := hnone hkind
    refine ⟨⟨[], [], [], ?_⟩, fun htls => absurd (htls.symm.trans hempty) lit_tls_ne⟩
    rw [hempty]
    rfl
  | plain hkind =>
    refine ⟨⟨trimSpace s.clientReq.tlsSni, [], [], ?_⟩, fun htls => congrArg trimSpace ((clientFields_form s).sni htls)⟩
    rw [← clientReq_obfsOf hs]
    rfl
  | acme hkind hacme =>
    have hrole : lit "client" = lit "server" := hacme.2.1
    exact absurd hrole (by decide)

theorem ClientParts.item (h : ClientParts s u) (hrole : s.role ≠ lit "server") (hk : k.ofPart = true)
    (hp : k.clientPrints = true) : u.item k = s.tidied.item k := by
  obtain ⟨⟨sni, domain, email, rfl⟩, hsni⟩ := h
  have hform := clientFields_form s
  have hsni : s.obfs = lit "tls" → sni = s.tidied.tlsSni := by
    intro htls
    exact (hsni htls).trans (if_neg fun h => hrole h.1).symm
  cases k <;> cases hk <;> cases hp
  all_goals
    dsimp only [item, clientFields, blankClient]
    try simp only [s.tidied_same, nil_append]
  case remoteAddr => simp only [hform.addr, tidied]
  case fallbackAddrs => rw [hform.fallbacks]; rfl
  case token => rw [hform.token]; rfl
  case tlsSni => exact within_congr rfl fun htls => by rw [hsni htls]
  case loadBalance =>
    rw [hform.fallbacks, hform.balance.1]
    simp only [tidied]
    split <;> simp_all
  case healthFailover =>
    rw [hform.fallbacks, hform.balance.1, hform.balance.2]
    simp only [tidied]
    split <;> simp_all
  case simpleAuth => exact within_congr rfl fun htls => by rw [if_pos htls, hform.auth htls]
  case edgeIp =>
    refine within_congr rfl fun hws => ?_
    rw [if_pos hws, hform.edge hws]
    rfl
  case proxy =>
    rw [hform.outbound.1]
    simp only [tidied]
    split <;> split <;> simp_all
  case localAddr => rw [hform.outbound.2.2]; rfl
  case interface =>
    rw [hform.outbound.2.1]
    simp only [tidied]
    split <;> split <;> simp_all

end ArangeTun.Tunnels
