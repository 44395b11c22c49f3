import ArangeTun.Go.Lemmas.HostPort
import ArangeTun.Tunnels.Create
import ArangeTun.Tunnels.Lemmas.ReadBack

/-! # What `buildSpec` makes -/

namespace ArangeTun.Tunnels

open Go Ports

variable {m : Machine} {req : TunnelRequest} {s t : TunnelSpec}

/-! ## The parts -/

theorem ensureSelfSignedCert_eq_ok {name host : Str} {pair : Str × Str}
    (h : ensureSelfSignedCert m name host = .ok pair) : pair = (certPath name, keyPath name) := by
  unfold ensureSelfSignedCert at h
  split at h
  · exact (Except.ok.inj h).symm
  · split at h
    · cases h
    · exact (Except.ok.inj h).symm

inductive Certified (req : TunnelRequest) (s : TunnelSpec) : TunnelSpec → Prop
  | self (hmode : trimSpace req.tlsMode = [] ∨ trimSpace req.tlsMode = lit "self") :
      Certified req s { s with tlsCert := certPath s.name, tlsKey := keyPath s.name }
  | acme (hmode : trimSpace req.tlsMode = lit "acme") (hdomain : trimSpace req.acmeDomain ≠ [])
      (hip : parseIP (trimSpace req.acmeDomain) = none) :
      Certified req s { s with
        acmeDomain := trimSpace req.acmeDomain, acmeEmail := trimSpace req.acmeEmail
        tlsCert := certPath s.name, tlsKey := keyPath s.name }
  | existing (hmode : trimSpace req.tlsMode = lit "existing") (hcert : trimSpace req.tlsCert ≠ [])
      (hkey : trimSpace req.tlsKey ≠ []) :
      Certified req s { s with tlsCert := trimSpace req.tlsCert, tlsKey := trimSpace req.tlsKey }

theorem configureServerTLS_eq_ok (h : configureServerTLS m s req = .ok t) : Certified req s t := by
  unfold configureServerTLS at h
  dsimp only at h
  generalize hmode : (if trimSpace req.tlsMode = [] then lit "self" else trimSpace req.tlsMode) = mode at h
  have hgiven : mode ≠ lit "self" → trimSpace req.tlsMode = mode := by
    intro hne
    split at hmode
    · exact absurd hmode.symm hne
    · exact hmode
  split at h
  next hself =>
    obtain ⟨pair, hpair, ht⟩ := bind_eq_ok.mp h
    cases ensureSelfSignedCert_eq_ok hpair
    cases ht
    refine .self ?_
    split at hmode
    · exact .inl ‹_›
    · exact .inr (hmode.trans hself)
  next hself =>
    split at h
    next hacme =>
      obtain ⟨hdomain, hip, hrest⟩ := by
        simpa only [check_bind_eq_ok, require_eq_ok] using h
      obtain ⟨pair, hpair, ht⟩ := bind_eq_ok.mp hrest
      cases ensureSelfSignedCert_eq_ok hpair
      cases ht
      exact .acme ((hgiven hself).trans hacme) hdomain hip
    next =>
      split at h
      next hexisting =>
        obtain ⟨hpair, ht⟩ := check_bind_eq_ok.mp h
        cases ht
        have hfiles : ∀ f ∈ [trimSpace req.tlsCert, trimSpace req.tlsKey], f ≠ [] := by
          intro f hf
          have hone := check_forM_eq_ok.mp hpair f hf
          exact require_eq_ok.mp (check_bind_eq_ok.mp hone).1
        exact .existing ((hgiven hself).trans hexisting) (hfiles _ (by simp)) (hfiles _ (by simp))
      next => cases h

structure Served (m : Machine) (req : TunnelRequest) (s t : TunnelSpec) : Prop where
  port : validPort req.port = true
  ports : normalizePorts req.ports ≠ []
  specs : ∀ p ∈ normalizePorts req.ports, validPortSpec p = true
  plain : needsTLS s.transport = false → t = serverFields m s req
  tls : needsTLS s.transport = true → ∃ u, Certified req (serverFields m s req) u ∧
    t = { u with simpleAuth := req.simpleAuth }

theorem buildServer_eq_ok (h : buildServer m s req = .ok t) : Served m req s t := by
  obtain ⟨hport, hports, hspecs, hrest⟩ := by
    simpa only [buildServer, validatePortSpecs, check_bind_eq_ok, require_eq_ok, check_forM_eq_ok] using h
  refine ⟨hport, hports, hspecs, fun htls => ?_, fun htls => ?_⟩
  · rw [if_neg (by simp [htls])] at hrest
    exact (Except.ok.inj hrest).symm
  · rw [if_pos htls] at hrest
    obtain ⟨u, hu, ht⟩ := bind_eq_ok.mp hrest
    exact ⟨u, configureServerTLS_eq_ok hu, (Except.ok.inj ht).symm⟩

structure Dialled (req : TunnelRequest) (s t : TunnelSpec) : Prop where
  host : trimBrackets (trimSpace req.serverHost) ≠ []
  port : validPort req.serverPort = true
  token : trimSpace req.token ≠ []
  eq : t = clientFields s req

theorem buildClient_eq_ok (h : buildClient m s req = .ok t) : Dialled req s t := by
  unfold buildClient at h
  obtain ⟨hhost, hport, htoken, hrest⟩ := by
    simpa only [check_bind_eq_ok, require_eq_ok] using h
  refine ⟨hhost, hport, htoken, ?_⟩
  split at hrest
  · obtain ⟨-, -, ht⟩ := by
      simpa only [check_bind_eq_ok, require_eq_ok] using hrest
    exact (Except.ok.inj ht).symm
  · exact (Except.ok.inj hrest).symm

inductive Obfuscated (req : TunnelRequest) (s : TunnelSpec) : TunnelSpec → Prop
  | other (hkind : isReverseProxy s.transport = false) : Obfuscated req s s
  | plain (hkind : isReverseProxy s.transport = true) (hacme : ¬ ObfsACME req) :
      Obfuscated req s { s with obfs := obfsOf req, tlsSni := trimSpace req.tlsSni }
  | acme (hkind : isReverseProxy s.transport = true) (hacme : ObfsACME req) (hsni : trimSpace req.tlsSni ≠ []) :
      Obfuscated req s { s with
        obfs := obfsOf req, tlsSni := trimSpace req.tlsSni
        acmeDomain := trimSpace req.tlsSni, acmeEmail := trimSpace req.acmeEmail }

theorem obfuscate_eq_ok (h : obfuscate s req = .ok t) : Obfuscated req s t := by
  unfold obfuscate at h
  split at h
  next hkind =>
    split at h
    next hacme =>
      obtain ⟨hsni, ht⟩ := by
        simpa only [check_bind_eq_ok, require_eq_ok] using h
      cases ht
      exact .acme hkind hacme hsni
    next hacme =>
      cases h
      exact .plain hkind hacme
  next hkind =>
    cases h
    exact .other (Bool.eq_false_iff.mpr hkind)

def tuned (req : TunnelRequest) (s : TunnelSpec) (preset : Str) : TunnelSpec :=
  match req.advanced with
  | some a => applyAdvanced (applyPreset s preset) a
  | none => applyPreset s preset

structure BuiltFrom (m : Machine) (req : TunnelRequest) (t : TunnelSpec) : Prop where
  name : validName (trimSpace req.name) = true
  transport : validTransport (trimSpace req.transport) = true
  steps : ∃ s u preset,
    Obfuscated req { name := trimSpace req.name, role := req.role, transport := trimSpace req.transport } s ∧
    (req.role = lit "server" ∧ Served m req s u ∨ req.role = lit "client" ∧ Dialled req s u) ∧
    preset = (if trimSpace req.preset = [] then presetTurbo else trimSpace req.preset) ∧
    validPreset preset = true ∧ t = tuned req u preset

theorem buildSpec_eq_ok (h : buildSpec m req = .ok t) : BuiltFrom m req t := by
  simp only [buildSpec, check_bind_eq_ok, require_eq_ok] at h
  obtain ⟨hname, htransport, h⟩ := h
  obtain ⟨s, hs, h⟩ := bind_eq_ok.mp h
  obtain ⟨u, hu, h⟩ := bind_eq_ok.mp h
  simp only [check_bind_eq_ok, require_eq_ok] at h
  obtain ⟨hpreset, -, h⟩ := h
  refine ⟨hname, htransport, s, u, _, obfuscate_eq_ok hs, ?_, rfl, hpreset, ?_⟩
  · unfold buildRole at hu
    split at hu
    · exact .inl ⟨‹_›, buildServer_eq_ok hu⟩
    · split at hu
      · exact .inr ⟨‹_›, buildClient_eq_ok hu⟩
      · cases hu
  · exact (Except.ok.inj h).symm

/-! ## What every tunnel that is built has -/

def TunnelSpec.spoofing (s : TunnelSpec) : TunnelSpec :=
  { spoofProfile := s.spoofProfile, spoofUplink := s.spoofUplink, spoofDownlink := s.spoofDownlink
    spoofSrcIP := s.spoofSrcIP, spoofSrcPool := s.spoofSrcPool, spoofPeerIP := s.spoofPeerIP
    spoofInterface := s.spoofInterface, spoofPipe := s.spoofPipe, spoofPipeAddr := s.spoofPipeAddr
    spoofPeerSrcIP := s.spoofPeerSrcIP }

def TunnelSpec.packet (s : TunnelSpec) : TunnelSpec :=
  { pckInterface := s.pckInterface, pckGatewayMAC := s.pckGatewayMAC, pckFlags := s.pckFlags }

theorem tuned_spoofing (req : TunnelRequest) (preset : Str) (h : s.transport ≠ lit "spoof") :
    (tuned req s preset).spoofing = s.spoofing := by
  unfold tuned
  split
  · simp [TunnelSpec.spoofing, applyAdvanced, applyPreset, applyKCPPreset, h]
  · rfl

theorem tuned_packet (req : TunnelRequest) (preset : Str) (h : s.transport ≠ lit "pck") :
    (tuned req s preset).packet = s.packet := by
  unfold tuned
  split
  · simp [TunnelSpec.packet, applyAdvanced, applyPreset, applyKCPPreset, h]
  · rfl

theorem Obfuscated.frame (h : Obfuscated req s t) :
    ∃ obfs sni domain email, t = { s with obfs := obfs, tlsSni := sni, acmeDomain := domain, acmeEmail := email } ∧
      (obfs ≠ s.obfs → isReverseProxy s.transport = true) := by
  cases h with
  | other => exact ⟨_, _, _, _, rfl, fun hne => absurd rfl hne⟩
  | plain hkind => exact ⟨_, _, _, _, rfl, fun _ => hkind⟩
  | acme hkind => exact ⟨_, _, _, _, rfl, fun _ => hkind⟩

theorem Served.frame (h : Served m req s t) :
    ∃ cert key domain email auth, t = { serverFields m s req with
      tlsCert := cert, tlsKey := key, acmeDomain := domain, acmeEmail := email, simpleAuth := auth } := by
  cases htls : needsTLS s.transport with
  | false =>
    rw [h.plain htls]
    exact ⟨_, _, _, _, _, rfl⟩
  | true =>
    obtain ⟨u, hu, rfl⟩ := h.tls htls
    cases hu <;> exact ⟨_, _, _, _, _, rfl⟩

structure TunnelSpec.Made (s : TunnelSpec) : Prop where
  name : validName s.name = true
  obfs : s.obfs ≠ [] → isReverseProxy s.transport = true
  role : s.role = lit "server" ∧ s.bindAddr ≠ [] ∨ s.role = lit "client" ∧ s.remoteAddr ≠ []
  edge : isWS s.transport = false → s.edgeIP = []
  spoof : s.transport ≠ lit "spoof" → s.spoofing = {}
  pck : s.transport ≠ lit "pck" → s.packet = {}

theorem TunnelSpec.Made.tuned (preset : Str) (h : s.Made) : (tuned req s preset).Made := by
  have hspoof := fun hne => (tuned_spoofing req preset hne).trans (h.spoof hne)
  have hpck := fun hne => (tuned_packet req preset hne).trans (h.pck hne)
  unfold Tunnels.tuned at *
  generalize req.advanced = advanced at *
  cases advanced with
  | none => exact ⟨h.name, h.obfs, h.role, h.edge, hspoof, hpck⟩
  | some a => exact ⟨h.name, h.obfs, h.role, h.edge, hspoof, hpck⟩

theorem buildSpec_made (h : buildSpec m req = .ok t) : t.Made := by
  obtain ⟨hname, -, s, u, preset, hobfs, hrole, -, -, rfl⟩ := buildSpec_eq_ok h
  refine TunnelSpec.Made.tuned preset ?_
  obtain ⟨obfs, sni, domain, email, rfl, hkind⟩ := hobfs.frame
  obtain ⟨hserver, hserved⟩ | ⟨hclient, hdialled⟩ := hrole
  · obtain ⟨cert, key, domain', email', auth, rfl⟩ := hserved.frame
    exact ⟨hname, hkind, .inl ⟨hserver, joinHostPort_ne_nil _ _⟩, fun _ => rfl, fun _ => rfl, fun _ => rfl⟩
  · obtain rfl := hdialled.eq
    refine ⟨hname, hkind, .inr ⟨hclient, joinHostPort_ne_nil _ _⟩, ?_, fun _ => rfl, fun _ => rfl⟩
    intro hws
    exact if_neg (Bool.eq_false_iff.mp hws)

theorem tuned_name (req : TunnelRequest) (s : TunnelSpec) (preset : Str) : (tuned req s preset).name = s.name := by
  unfold tuned
  split <;> rfl

theorem buildSpec_name (h : buildSpec m req = .ok t) : t.name = trimSpace req.name := by
  obtain ⟨-, -, s, u, preset, hobfs, hrole, -, -, rfl⟩ := buildSpec_eq_ok h
  rw [tuned_name]
  obtain ⟨obfs, sni, domain, email, rfl, -⟩ := hobfs.frame
  obtain ⟨-, hserved⟩ | ⟨-, hdialled⟩ := hrole
  · obtain ⟨cert, key, domain', email', auth, rfl⟩ := hserved.frame
    rfl
  · rw [hdialled.eq]
    rfl

theorem TunnelSpec.Made.printable (h : s.Made) : s.Printable := by
  refine ⟨h.name, fun ⟨hobfs, htls⟩ => ?_⟩
  have hne : s.obfs ≠ [] := by
    rw [hobfs]
    decide
  rw [not_needsTLS_of_isReverseProxy (h.obfs hne)] at htls
  cases htls

end ArangeTun.Tunnels
