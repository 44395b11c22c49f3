import ArangeTun.Tunnels.Frame
import ArangeTun.Tunnels.Resave

/-! # What a web edit without changes leaves on disk -/

namespace ArangeTun.Tunnels

open Go Toml Ports TunnelSpec

variable {isPrint : Char → Bool} {m : Machine} {req : TunnelRequest} {o : Outcomes} {w : World} {s t u : TunnelSpec}
  {k : Key}

/-! ## The tunnel that is built from the form -/

theorem clientReq_advanced (hrole : s.role ≠ lit "server") :
    s.clientReq.advanced = if s.Plain then none else some (clientAdvanced (s.sectionFor Key.clientPrints)) := by
  have hpreset : (s.sectionFor Key.clientPrints).str .preset = s.preset := preset_printed rfl
  have htransport : (s.sectionFor Key.clientPrints).str .transport = s.transport := transport_printed rfl
  have hmss : (s.sectionFor Key.clientPrints).int .mss = max s.mss 0 := int_printed rfl rfl
  have hiff : s.Plain ↔ ¬ (s.preset = [] ∨ 0 < max s.mss 0 ∨ s.transport = lit "spoof") := by
    simp only [TunnelSpec.Plain, hrole, false_imp_iff, and_true, lt_max_iff, lt_irrefl, or_false, not_or, not_lt, ne_eq]
  simp only [clientReq, clientForm, hpreset, hmss, htransport, hiff, ite_not]

/-- What `UpdateTunnel` makes of the words of a form. -/
theorem words_of {req : TunnelRequest} (hs : s.Sound) (hname : req.name = s.name)
    (htransport : req.transport = s.transport) (hpreset : req.preset = s.preset) :
    ({ name := trimSpace req.name, role := req.role, transport := trimSpace req.transport } : TunnelSpec) =
      { name := s.name, role := req.role, transport := s.transport } ∧
      (if trimSpace req.preset = [] then presetTurbo else trimSpace req.preset) = s.basePreset := by
  rw [hname, htransport, hpreset, trimSpace_validName hs.name, trimSpace_validTransport hs.transport]
  exact ⟨rfl, rfl⟩

def TunnelSpec.form (s : TunnelSpec) : TunnelRequest := if s.role = lit "server" then s.serverReq else s.clientReq

structure Rebuilt (m : Machine) (s u : TunnelSpec) : Prop where
  untuned : u.untuned = u
  role : u.role = lit "server" ↔ s.role = lit "server"
  transport : u.transport = s.transport
  parts : if s.role = lit "server" then ServerParts m s u else ClientParts s u

theorem buildSpec_form (hs : s.Sound) (h : buildSpec m s.form = .ok t) :
    ∃ u, Rebuilt m s u ∧ t = tuned s.form u s.basePreset := by
  have hdiffer : lit "server" ≠ lit "client" := by decide
  obtain ⟨-, -, v, u, preset, hobfs, hrole, rfl, -, rfl⟩ := buildSpec_eq_ok h
  unfold form at *
  by_cases hserver : s.role = lit "server"
  · rw [if_pos hserver] at hobfs hrole ⊢
    obtain ⟨hblank, hpreset⟩ := @words_of s s.serverReq hs rfl
      (@transport_printed s Key.serverPrints rfl) (@preset_printed s Key.serverPrints rfl)
    rw [hblank] at hobfs
    refine ⟨u, ?_, by rw [hpreset]⟩
    obtain ⟨-, hserved⟩ | ⟨hclient, -⟩ := hrole
    · have hparts := hserved.parts hs hserver hobfs
      have hall := hparts
      obtain ⟨⟨sni, domain, email, cert, key, auth, rfl⟩, -, -⟩ := hparts
      refine ⟨?_, iff_of_true rfl hserver, rfl, by rwa [if_pos hserver]⟩
      dsimp only [untuned, serverFields, blankServer]
    · exact absurd hclient hdiffer
  · rw [if_neg hserver] at hobfs hrole ⊢
    obtain ⟨hblank, hpreset⟩ := @words_of s s.clientReq hs rfl
      (@transport_printed s Key.clientPrints rfl) (@preset_printed s Key.clientPrints rfl)
    rw [hblank] at hobfs
    refine ⟨u, ?_, by rw [hpreset]⟩
    obtain ⟨hclient, -⟩ | ⟨-, hdialled⟩ := hrole
    · exact absurd hclient.symm hdiffer
    · have hparts := hdialled.parts hs hobfs
      have hall := hparts
      obtain ⟨⟨sni, domain, email, rfl⟩, -⟩ := hparts
      refine ⟨?_, iff_of_false hdiffer.symm hserver, rfl, by rwa [if_neg hserver]⟩
      dsimp only [untuned, clientFields, blankClient]

theorem tuned_role (req : TunnelRequest) (s : TunnelSpec) (preset : Str) : (tuned req s preset).role = s.role := by
  unfold tuned
  split <;> rfl

theorem Rebuilt.item (hs : s.Sound) (h : Rebuilt m s u) (hp : s.prints k = true) (hform : ¬ s.NotInForm k) :
    (tuned s.form u s.basePreset).item k = s.resaved.item k := by
  obtain ⟨huntuned, hrole, htransport, hparts⟩ := h
  unfold form prints at *
  cases hk : k.ofPart with
  | true =>
    rw [item_tuned_part _ _ hk, item_resaved_part hk]
    by_cases hserver : s.role = lit "server"
    · rw [if_pos hserver] at hparts hp
      exact hparts.item hs hk hp hform
    · rw [if_neg hserver] at hparts hp
      exact hparts.item hserver hk hp
  | false =>
    by_cases hserver : s.role = lit "server"
    · rw [if_pos hserver] at hparts hp ⊢
      unfold tuned resaved
      rw [serverReq_advanced hserver, ← huntuned]
      by_cases hplain : s.Plain
      · rw [if_pos hplain, if_pos hplain]
        exact item_plain hplain _ htransport hk (by rwa [prints, if_pos hserver]) hform
      · rw [if_neg hplain, if_neg hplain]
        exact item_custom hplain _ htransport hk hp hform (.inl ⟨hrole.mpr hserver, rfl, rfl⟩)
    · rw [if_neg hserver] at hparts hp ⊢
      unfold tuned resaved
      rw [clientReq_advanced hserver, ← huntuned]
      by_cases hplain : s.Plain
      · rw [if_pos hplain, if_pos hplain]
        exact item_plain hplain _ htransport hk (by rwa [prints, if_neg hserver]) hform
      · rw [if_neg hplain, if_neg hplain]
        exact item_custom hplain _ htransport hk hp hform (.inr ⟨mt hrole.mp hserver, rfl, rfl⟩)

/-! ## The new file can be read -/

theorem quoted_of_kind (hk : k.kind = .int ∨ k.kind = .bool) : Quoted (s.item k) := by
  intro v hv x hx
  rw [← item_kind k v hv] at hk
  cases v with
  | int n => cases hx
  | bool b => cases hx
  | str y => simp [Value.kind] at hk
  | strs l => simp [Value.kind] at hk

@[simp] theorem quoted_nonempty {x : Str} : Quoted (nonempty x) ↔ Quotable x := by
  cases x with
  | nil => exact iff_of_true quoted_none quotable_nil
  | cons b x => simp [nonempty, within]

theorem quoted_within' {c : Prop} [Decidable c] {o : Option Value} (h : c → Quoted o) : Quoted (within c o) := by
  unfold within
  split
  · exact h ‹_›
  · exact quoted_none

theorem quoted_of_within {c : Prop} [Decidable c] {o : Option Value} (h : Quoted (within c o)) (hc : c) : Quoted o := by
  rwa [within, if_pos hc] at h

theorem quoted_notInForm (hu : u.untuned = u) (hne : k ≠ .bindAddr) (hform : s.NotInForm k)
    (hadvanced : req.advanced = none ↔ s.Plain) (preset : Str) : Quoted ((tuned req u preset).item k) := by
  rw [← hu]
  have hint : k.kind = .int ∨ k.kind = .bool ∨ k = .webBind ∨ k = .spoofDstIp ∨
      s.Plain ∧ (k = .logFormat ∨ k = .pckInterface ∨ k = .pckGatewayMac ∨ k = .pckFlags) := by
    simp only [TunnelSpec.NotInForm, List.mem_cons, List.not_mem_nil, or_false] at hform
    obtain (rfl | rfl | rfl | rfl | rfl) | ⟨rfl, -⟩ | hform := hform
    · exact .inr (.inl rfl)
    · exact .inl rfl
    · exact .inr (.inr (.inl rfl))
    · exact .inl rfl
    · exact .inr (.inr (.inr (.inl rfl)))
    · exact absurd rfl hne
    · split at hform
      next hplain =>
        obtain rfl | rfl | rfl | rfl | rfl | rfl := hform
        · exact .inr (.inl rfl)
        · exact .inr (.inl rfl)
        all_goals exact .inr (.inr (.inr (.inr ⟨hplain, by simp⟩)))
      next =>
        obtain rfl | rfl | rfl | rfl | rfl | rfl := hform
        all_goals first | exact .inl rfl | exact .inr (.inl rfl)
  obtain hkind | hkind | rfl | rfl | ⟨hplain, hk⟩ := hint
  · exact quoted_of_kind (.inl hkind)
  · exact quoted_of_kind (.inr hkind)
  · unfold tuned
    split <;> exact quoted_none
  · unfold tuned
    split <;> exact quoted_within quoted_none
  · have hnone := hadvanced.mpr hplain
    unfold tuned
    rw [hnone]
    obtain rfl | rfl | rfl | rfl := hk
    · exact quoted_none
    all_goals exact quoted_within quoted_none

theorem quotable_addrForm {addr : Str} (h : Quotable addr) : Quotable (addrForm addr).1 ∧ Quotable (addrForm addr).2 := by
  unfold addrForm
  cases hs : splitHostPort addr with
  | none => exact ⟨quotable_nil, quotable_nil⟩
  | some hp => exact (quotable_splitHostPort hs).mp h

theorem quotable_fallbackAddr {port part : Str} (hport : Quotable port) (hpart : Quotable part) :
    Quotable (fallbackAddr port part) := by
  unfold fallbackAddr
  split
  · exact hpart
  · exact (quotable_joinHostPort hport).mpr (quotable_trimBrackets.mpr hpart)

theorem quotable_trimmed {l : List Str} (h : ∀ x ∈ l, Quotable x) :
    ∀ x ∈ (l.map trimSpace).filter (· ≠ []), Quotable x := by
  intro x hx
  obtain ⟨y, hy, rfl⟩ := List.mem_map.mp (List.mem_of_mem_filter hx)
  exact (h y hy).trimSpace

theorem quotable_certPaths {name : Str} (h : validName name = true) :
    Quotable (certPath name) ∧ Quotable (keyPath name) := by
  have hname : ∀ b ∈ name, Graphic b := by
    intro b hb
    obtain ⟨hlo, hhi⟩ := nameByte_bounds (nameByte_of_mem h hb)
    exact ⟨UInt8.le_iff_toNat_le.mpr (Nat.le_trans (by decide) hlo),
      UInt8.lt_iff_toNat_lt.mpr (Nat.lt_of_le_of_lt hhi (by decide))⟩
  have hfixed : ∀ part ∈ [certDir ++ lit "/", lit ".crt", lit ".key"], ∀ b ∈ part, Graphic b := by decide
  constructor
  · refine quotable_of_graphic (List.forall_mem_append.mpr ⟨List.forall_mem_append.mpr ⟨?_, hname⟩, ?_⟩)
    · exact hfixed _ (by simp)
    · exact hfixed _ (by simp)
  · refine quotable_of_graphic (List.forall_mem_append.mpr ⟨List.forall_mem_append.mpr ⟨?_, hname⟩, ?_⟩)
    · exact hfixed _ (by simp)
    · exact hfixed _ (by simp)

theorem quotable_ite {c : Prop} [Decidable c] {x y : Str} (hx : c → Quotable x) (hy : ¬ c → Quotable y) :
    Quotable (if c then x else y) := by
  split
  · exact hx ‹_›
  · exact hy ‹_›

theorem quoted_tidied (hs : s.Sound) (hq : ∀ k, s.prints k = true → Quoted (s.item k)) (hp : s.prints k = true) :
    Quoted (s.tidied.item k) := by
  have hwords : ∀ x ∈ [lit "info", lit "json", []], Quotable x := by
    have hall : ∀ x ∈ [lit "info", lit "json", []], ∀ b ∈ x, Graphic b := by decide
    exact fun x hx => quotable_of_graphic (hall x hx)
  obtain ⟨hcert, hkey⟩ := quotable_certPaths hs.name
  have hk := hq k hp
  by_cases hkind : k.kind = .int ∨ k.kind = .bool
  · exact quoted_of_kind hkind
  cases k
  all_goals
    first
    | exact absurd (by decide) hkind
    | dsimp only [item, tidied] at hk ⊢
  case bindAddr | transport | preset | obfs | spoofProfile | spoofUplink | spoofDownlink | spoofSrcPool | spoofPeerIp |
    spoofDstIp | spoofInterface | spoofPeerSrcIp | spoofPipeAddr | pckInterface | pckGatewayMac | pckFlags | webBind =>
    exact hk
  case remoteAddr =>
    obtain ⟨hhost, hport⟩ := quotable_addrForm (quoted_str.mp hk)
    exact quoted_str.mpr ((quotable_joinHostPort hport).mpr (quotable_trimBrackets.mpr hhost.trimSpace))
  case fallbackAddrs =>
    have hclient : s.role ≠ lit "server" := by
      intro hrole
      rw [prints, if_pos hrole] at hp
      cases hp
    have hremote : Quotable s.remoteAddr :=
      quoted_str.mp (hq .remoteAddr (by rw [prints, if_neg hclient]; rfl))
    refine quoted_nonemptyList.mpr fun x hx => ?_
    obtain ⟨y, hy, rfl⟩ := List.mem_map.mp hx
    exact quotable_fallbackAddr (quotable_addrForm hremote).2 (quotable_trimmed (quoted_nonemptyList.mp hk) y hy)
  case token => exact quoted_str.mpr (quoted_str.mp hk).trimSpace
  case ports => exact quoted_strs.mpr (quotable_trimmed (quoted_strs.mp hk))
  case logLevel =>
    exact quoted_str.mpr (quotable_ite (fun _ => (quoted_str.mp hk).trimSpace) fun _ => hwords _ (by simp))
  case logFormat => exact quoted_nonempty.mpr (quotable_ite (fun _ => hwords _ (by simp)) fun _ => hwords _ (by simp))
  case tlsSni =>
    refine quoted_within' fun htls => quoted_nonempty.mpr (quotable_ite (fun hacme => ?_) fun _ => ?_)
    · have hdomain := hq .acmeDomain (by rw [prints, if_pos hacme.1]; rfl)
      exact (quoted_nonempty.mp (quoted_of_within hdomain (.inl htls))).trimSpace
    · exact (quoted_nonempty.mp (quoted_of_within hk htls)).trimSpace
  case acmeDomain =>
    exact quoted_within' fun htls => quoted_nonempty.mpr (quoted_nonempty.mp (quoted_of_within hk htls)).trimSpace
  case acmeEmail =>
    refine quoted_within' fun htls => quoted_within' fun hne => quoted_nonempty.mpr ?_
    have hdomain : s.acmeDomain ≠ [] := by
      rintro hempty
      rw [hempty] at hne
      exact hne rfl
    exact (quoted_nonempty.mp (quoted_of_within (quoted_of_within hk htls) hdomain)).trimSpace
  case spoofSrcIp =>
    refine quoted_within' fun hspoof => quoted_nonempty.mpr (quotable_ite (fun hpool => ?_) fun _ => ?_)
    · have hall := hq .spoofSrcPool (by rw [prints]; split <;> rfl)
      have hpools := quoted_nonemptyList.mp (quoted_of_within hall hspoof)
      cases hlist : s.spoofSrcPool with
      | nil => exact quotable_nil
      | cons x l =>
        rw [hlist] at hpools
        exact hpools x (.head _)
    · exact quoted_nonempty.mp (quoted_of_within hk hspoof)
  case tlsCert =>
    exact quoted_within' fun htls => quoted_str.mpr
      (quotable_ite (fun _ => hcert) fun _ => (quoted_str.mp (quoted_of_within hk htls)).trimSpace)
  case tlsKey =>
    exact quoted_within' fun htls => quoted_str.mpr
      (quotable_ite (fun _ => hkey) fun _ => (quoted_str.mp (quoted_of_within hk htls)).trimSpace)
  case edgeIp =>
    exact quoted_within' fun hws => quoted_nonempty.mpr (quoted_nonempty.mp (quoted_of_within hk hws)).trimSpace
  case proxy | localAddr | interface =>
    exact quoted_nonempty.mpr (quotable_ite (fun _ => quotable_nil) fun _ => (quoted_nonempty.mp hk).trimSpace)

theorem quoted_applyPreset (preset : Str) (h : Quoted (t.item k)) : Quoted ((applyPreset t preset).item k) := by
  by_cases hkind : k.kind = .int ∨ k.kind = .bool
  · exact quoted_of_kind hkind
  cases k
  case preset =>
    have hpresets : ∀ x ∈ [presetBalance, presetTurbo, presetAggressive, presetThroughput], ∀ b ∈ x, Graphic b := by
      decide
    refine quoted_nonempty.mpr (quotable_ite (fun hvalid => ?_) fun _ => ?_)
    · exact quotable_of_graphic (hpresets _ (by simpa [validPreset, or_assoc] using hvalid))
    · exact quotable_of_graphic (hpresets _ (by simp))
  case logLevel =>
    have hinfo : ∀ b ∈ lit "info", Graphic b := by decide
    exact quoted_str.mpr (quotable_of_graphic hinfo)
  all_goals
    first
    | exact absurd (by decide) hkind
    | dsimp only [item, applyPreset, applyKCPPreset] at h ⊢; exact h

theorem quoted_filled (preset : Str) (h : Quoted (t.item k)) : Quoted ((t.filled preset).item k) := by
  by_cases hkind : k.kind = .int ∨ k.kind = .bool
  · exact quoted_of_kind hkind
  unfold filled
  generalize applyPreset t preset = v
  cases k
  case preset => exact quoted_none
  all_goals
    first
    | exact absurd (by decide) hkind
    | dsimp only [item] at h ⊢; exact h

theorem quoted_resaved (hs : s.Sound) (hq : ∀ k, s.prints k = true → Quoted (s.item k)) (hp : s.prints k = true) :
    Quoted (s.resaved.item k) := by
  unfold resaved
  split
  · exact quoted_applyPreset _ (quoted_tidied hs hq hp)
  · exact quoted_filled _ (quoted_tidied hs hq hp)

theorem Rebuilt.quoted_bindAddr (h : Rebuilt m s u) (hp : s.prints .bindAddr = true) (req : TunnelRequest)
    (preset : Str) : Quoted ((tuned req u preset).item .bindAddr) := by
  rw [item_tuned_part _ _ rfl]
  have hserver : s.role = lit "server" := by
    by_contra hrole
    rw [prints, if_neg hrole] at hp
    cases hp
  have hparts := h.parts
  rw [if_pos hserver] at hparts
  obtain ⟨⟨sni, domain, email, cert, key, auth, rfl⟩, hport, -⟩ := hparts
  have hhosts : ∀ x ∈ [lit "::", lit "0.0.0.0"], ∀ b ∈ x, Graphic b := by decide
  have hvalid : Quotable s.serverReq.port := by
    rw [serverReq_bindAddr.1]
    exact quotable_of_validPort hport
  refine quoted_str.mpr ((quotable_joinHostPort hvalid).mpr (quotable_ite (fun _ => ?_) fun _ => ?_))
  · exact quotable_of_graphic (hhosts _ (by simp))
  · exact quotable_of_graphic (hhosts _ (by simp))

theorem form_advanced (s : TunnelSpec) : s.form.advanced = none ↔ s.Plain := by
  unfold form
  by_cases hrole : s.role = lit "server"
  · rw [if_pos hrole, serverReq_advanced hrole]
    simp
  · rw [if_neg hrole, clientReq_advanced hrole]
    simp

/-! ## The two files -/

theorem tunnelForEdit_render (hs : s.Sound) (h : tunnelForEdit s.name (some (s.render isPrint)) = .ok req) :
    (∀ x ∈ s.strings, Quotable x) ∧ req = s.form := by
  unfold tunnelForEdit at h
  rw [Option.bind_some] at h
  cases hd : decode (s.render isPrint) with
  | none => rw [hd] at h; cases h
  | some cfg =>
    rw [hd] at h
    obtain ⟨hq, rfl⟩ := (decode_render hs.printable).mp hd
    refine ⟨hq, ?_⟩
    unfold config form at *
    dsimp only at h
    by_cases hrole : s.role = lit "server"
    · rw [if_pos hrole] at h ⊢
      split at h
      · exact (Except.ok.inj h).symm
      · cases h
    · rw [if_neg hrole] at h ⊢
      split at h
      next hbind => exact absurd rfl hbind
      next =>
        split at h
        · exact (Except.ok.inj h).symm
        · cases h

theorem updateTunnel_ok (h : (updateTunnel isPrint m o w req).2.isOk = true) :
    ∃ t, buildSpec m req = .ok t ∧
      (updateTunnel isPrint m o w req).1.files (configPath t.name) = some (t.render isPrint) := by
  unfold updateTunnel at *
  dsimp only at *
  split at h
  · cases h
  next hthere =>
    rw [if_neg hthere]
    cases hbuild : buildSpec m req with
    | error e => rw [hbuild] at h; cases h
    | ok t =>
      rw [hbuild] at h
      refine ⟨t, rfl, ?_⟩
      dsimp only at h ⊢
      cases save_stops o w t.name (t.render isPrint) with
      | mkdir _ hsave => rw [hsave] at h; cases h
      | config _ hsave => rw [hsave] at h; cases h
      | unit _ hsave => rw [hsave] at h; cases h
      | reload _ hsave => rw [hsave] at h; cases h
      | start _ hsave => rw [hsave] at h; cases h
      | done _ hsave =>
        rw [hsave]
        dsimp only
        split <;> rw [World.ctl_files, World.ctl_files, saved_files]

theorem sectionFor_same {prints : Key → Bool} (h : prints k = true → t.item k = s.item k) :
    t.sectionFor prints k = s.sectionFor prints k := by
  unfold sectionFor
  split
  · rw [h ‹_›]
  · rfl

theorem resaved_role (s : TunnelSpec) : s.resaved.role = s.role := by
  unfold resaved
  rw [← s.tidied_same.2.1]
  generalize s.tidied = t
  split <;> rfl

theorem config_resaved (hrole : t.role = lit "server" ↔ s.role = lit "server")
    (h : s.prints k = true → t.item k = s.resaved.item k) :
    t.config.server k = s.resaved.config.server k ∧ t.config.client k = s.resaved.config.client k := by
  unfold config prints at *
  rw [resaved_role]
  by_cases hserver : s.role = lit "server"
  · rw [if_pos (hrole.mpr hserver), if_pos hserver]
    rw [if_pos hserver] at h
    exact ⟨sectionFor_same h, rfl⟩
  · rw [if_neg (mt hrole.mp hserver), if_neg hserver]
    rw [if_neg hserver] at h
    exact ⟨rfl, sectionFor_same h⟩

/-- An edit without changes leaves the tunnel that was there, tidied, in every setting that the form has. -/
theorem resave_settings (hs : s.Sound) (hfile : w.files (configPath s.name) = some (s.render isPrint))
    (hform : tunnelForEdit s.name (w.files (configPath s.name)) = .ok req)
    (hok : (updateTunnel isPrint m o w req).2.isOk = true) :
    ∃ old new, (w.files (configPath s.name)).bind decode = some old ∧
      ((updateTunnel isPrint m o w req).1.files (configPath s.name)).bind decode = some new ∧
      ∀ k, ¬ s.NotInForm k →
        (new.server k = s.resaved.config.server k ∧ new.client k = s.resaved.config.client k) ∧
        (s.resaved.config = s.config → new.server k = old.server k ∧ new.client k = old.client k) := by
  rw [hfile] at hform ⊢
  obtain ⟨hq, rfl⟩ := tunnelForEdit_render hs hform
  obtain ⟨t, hbuild, hwritten⟩ := updateTunnel_ok hok
  have hname : t.name = s.name := by
    rw [buildSpec_name hbuild]
    have hsame : s.form.name = s.name := by
      unfold form
      split <;> rfl
    rw [hsame, trimSpace_validName hs.name]
  rw [hname] at hwritten
  have hmade := buildSpec_made hbuild
  obtain ⟨u, hu, rfl⟩ := buildSpec_form hs hbuild
  have hrole : (tuned s.form u s.basePreset).role = lit "server" ↔ s.role = lit "server" := by
    rw [tuned_role]
    exact hu.role
  have hprints : (tuned s.form u s.basePreset).prints = s.prints := by
    unfold prints
    simp only [hrole]
  have hold : decode (s.render isPrint) = some s.config := (decode_render hs.printable).mpr ⟨hq, rfl⟩
  rw [strings_quotable] at hq
  have hquoted : ∀ x ∈ (tuned s.form u s.basePreset).strings, Quotable x := by
    rw [strings_quotable, hprints]
    intro k hp
    by_cases hnot : s.NotInForm k
    · by_cases hbind : k = .bindAddr
      · subst hbind
        exact hu.quoted_bindAddr hp _ _
      · exact quoted_notInForm hu.untuned hbind hnot (form_advanced s) _
    · rw [hu.item hs hp hnot]
      exact quoted_resaved hs hq hp
  refine ⟨s.config, (tuned s.form u s.basePreset).config, hold, ?_, fun k hk => ?_⟩
  · rw [hwritten]
    exact (decode_render hmade.printable).mpr ⟨hquoted, rfl⟩
  · have hnew := config_resaved hrole fun hp => hu.item hs hp hk
    exact ⟨hnew, fun hsame => by rwa [hsame] at hnew⟩

/-! ## Two servers -/

def resave (s : TunnelSpec) : World × Except CreateError CreateResult :=
  updateTunnel (fun _ => true) .blank {} (onDisk s) s.form

theorem tunnelForEdit_form (hs : s.Sound) (hq : ∀ x ∈ s.strings, Quotable x) (hrole : s.role = lit "server")
    (hbind : s.bindAddr ≠ []) : tunnelForEdit s.name (some (s.render isPrint)) = .ok s.form := by
  have hdecode : decode (s.render isPrint) = some s.config := (decode_render hs.printable).mpr ⟨hq, rfl⟩
  have hserver : s.config.server = s.sectionFor Key.serverPrints := by rw [config, if_pos hrole]
  have hprinted : (s.sectionFor Key.serverPrints).str .bindAddr ≠ [] := by
    rw [str_sectionFor]
    exact hbind
  unfold tunnelForEdit form
  rw [Option.bind_some, hdecode, if_pos hrole]
  dsimp only
  rw [hserver, if_pos hprinted]
  rfl

theorem updateTunnel_succeeds {prev : Str} (hname : trimSpace req.name = t.name)
    (h : w.files (configPath t.name) = some prev) (hbuild : buildSpec m req = .ok t) :
    (updateTunnel isPrint m {} w req).2.isOk = true := by
  unfold updateTunnel
  dsimp only
  rw [hname, h, hbuild]
  rfl

theorem config_eq (hrole : t.role = s.role) (h : ∀ k ∈ Key.all, s.prints k = true → t.item k = s.item k) :
    t.config = s.config := by
  have hall : ∀ k, s.prints k = true → t.item k = s.item k := fun k => h k (Key.mem_all k)
  unfold config prints at *
  rw [hrole]
  split at hall
  next hserver =>
    rw [if_pos hserver, if_pos hserver]
    exact congrArg (fun c => (⟨c, .zero⟩ : Config)) (funext fun k => sectionFor_same (hall k))
  next hclient =>
    rw [if_neg hclient, if_neg hclient]
    exact congrArg (fun c => (⟨.zero, c⟩ : Config)) (funext fun k => sectionFor_same (hall k))

theorem resave_succeeds (hname : s.form.name = t.name ∧ trimSpace t.name = t.name ∧ s.name = t.name)
    (hbuild : buildSpec .blank s.form = .ok t) : (resave s).2.isOk = true := by
  refine @updateTunnel_succeeds _ _ _ _ _ (s.render fun _ => true) ?_ ?_ hbuild
  · rw [hname.1, hname.2.1]
  · rw [← hname.2.2]
    exact World.one_files ..

def presetServer (transport : Str) : TunnelSpec :=
  applyPreset
    { name := lit "a", role := lit "server", transport := transport, bindAddr := lit "0.0.0.0:1", token := lit "t"
      ports := [lit "1"] } presetTurbo

theorem tcp_resaved :
    (resave (presetServer (lit "tcp"))).2.isOk = true ∧
      (presetServer (lit "tcp")).resaved.config = (presetServer (lit "tcp")).config ∧
      ∃ old new, ((onDisk (presetServer (lit "tcp"))).files (configPath (presetServer (lit "tcp")).name)).bind decode = some old ∧
        ((resave (presetServer (lit "tcp"))).1.files (configPath (presetServer (lit "tcp")).name)).bind decode = some new ∧
        ∀ k, ¬ (presetServer (lit "tcp")).NotInForm k → new.server k = old.server k ∧ new.client k = old.client k := by
  have hs : (presetServer (lit "tcp")).Sound :=
    ⟨by decide, by decide, .inl (by decide), by decide⟩
  have hgraphic : ∀ x ∈ (presetServer (lit "tcp")).strings, ∀ b ∈ x, Graphic b := by decide
  have hbuild : buildSpec .blank (presetServer (lit "tcp")).form =
      .ok ((buildSpec .blank (presetServer (lit "tcp")).form).toOption.getD {}) := by decide
  have hok : (resave (presetServer (lit "tcp"))).2.isOk = true := resave_succeeds (by decide) hbuild
  have hform : tunnelForEdit (presetServer (lit "tcp")).name
      ((onDisk (presetServer (lit "tcp"))).files (configPath (presetServer (lit "tcp")).name)) =
      .ok (presetServer (lit "tcp")).form := by
    rw [onDisk, World.one_files]
    exact tunnelForEdit_form hs (fun x hx => quotable_of_graphic (hgraphic x hx)) (by decide) (by decide)
  have hconfig : (presetServer (lit "tcp")).resaved.config = (presetServer (lit "tcp")).config :=
    config_eq (resaved_role _) (by decide)
  obtain ⟨old, new, hold, hnew, hsame⟩ := resave_settings hs (World.one_files ..) hform hok
  exact ⟨hok, hconfig, old, new, hold, hnew, fun k hk => (hsame k hk).2 hconfig⟩

def unshardedServer : TunnelSpec :=
  { presetServer (lit "kcp") with preset := [], kcpDataShards := 0, kcpParityShards := 0 }

/-- The correction of errors is on after an edit without changes. -/
theorem kcp_shards_filled :
    tunnelForEdit unshardedServer.name ((onDisk unshardedServer).files (configPath unshardedServer.name)) =
        .ok unshardedServer.form ∧
      (resave unshardedServer).2.isOk = true ∧
      ∃ old new, ((onDisk unshardedServer).files (configPath unshardedServer.name)).bind decode = some old ∧
        ((resave unshardedServer).1.files (configPath unshardedServer.name)).bind decode = some new ∧
        old.server .kcpDatashards = .int 0 ∧ new.server .kcpDatashards = .int 10 := by
  have hs : unshardedServer.Sound :=
    ⟨by decide, by decide, .inl (by decide), by decide⟩
  have hgraphic : ∀ x ∈ unshardedServer.strings, ∀ b ∈ x, Graphic b := by decide
  have hq : ∀ x ∈ unshardedServer.strings, Quotable x := fun x hx => quotable_of_graphic (hgraphic x hx)
  generalize hnew : (buildSpec .blank unshardedServer.form).toOption.getD {} = new
  have hbuild : buildSpec .blank unshardedServer.form = .ok new := by
    rw [← hnew]
    decide
  have hname : unshardedServer.form.name = new.name ∧ trimSpace new.name = new.name ∧ unshardedServer.name = new.name := by
    rw [← hnew]
    decide
  have hgraphic' : ∀ x ∈ new.strings, ∀ b ∈ x, Graphic b := by
    rw [← hnew]
    decide
  have hok : (resave unshardedServer).2.isOk = true := resave_succeeds hname hbuild
  refine ⟨?_, hok, unshardedServer.config, new.config, ?_, ?_, by decide, ?_⟩
  · rw [onDisk, World.one_files]
    exact tunnelForEdit_form hs hq (by decide) (by decide)
  · rw [onDisk, World.one_files, Option.bind_some]
    exact (decode_render hs.printable).mpr ⟨hq, rfl⟩
  · obtain ⟨t, ht, hwritten⟩ := updateTunnel_ok hok
    obtain rfl : new = t := Except.ok.inj (hbuild.symm.trans ht)
    have hfile : (resave unshardedServer).1.files (configPath unshardedServer.name) =
        some (new.render fun _ => true) := by
      rw [hname.2.2]
      exact hwritten
    rw [hfile, Option.bind_some]
    exact (decode_render (buildSpec_made hbuild).printable).mpr
      ⟨fun x hx => quotable_of_graphic (hgraphic' x hx), rfl⟩
  · rw [← hnew]
    decide

end ArangeTun.Tunnels
