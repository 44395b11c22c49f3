import ArangeTun.Tunnels.Lemmas.Edits

/-! # An edit changes what it names -/

namespace ArangeTun.Tunnels

open Go Toml Ports

variable {isPrint : Char → Bool} {m : Machine} {req : TunnelRequest} {o : Outcomes} {w w' : World} {s t t' : TunnelSpec}

/-! ## The calls -/

inductive Call
  | editTunnel (host tunnelPort : Str) (ports : List Str)
  | setFallbackAddrs (addrs : List Str)
  | setLimits (maxConns bandwidthMbps : Int)
  | setMSS (mss : Int)
  | setLoadBalance (on : Bool)
  | setProxyProtocol (on : Bool)
  | ensureTelegramPort (p : Probes)
  | ensureSocksPort (p : Probes)

namespace Call

def run (isPrint : Char → Bool) (o : Outcomes) (w : World) (name : Str) : Call → World × Bool
  | editTunnel host tunnelPort ports =>
    (change isPrint o w name fun s => Tunnels.editTunnel s host tunnelPort ports).map id (·.isOk)
  | setFallbackAddrs addrs => (change isPrint o w name fun s => Tunnels.setFallbackAddrs s addrs).map id (·.isOk)
  | setLimits conns mbps => (change isPrint o w name fun s => Tunnels.setLimits s conns mbps).map id (·.isOk)
  | setMSS mss => (change isPrint o w name fun s => Tunnels.setMSS s mss).map id (·.isOk)
  | setLoadBalance on => (change isPrint o w name fun s => Tunnels.setLoadBalance s on).map id (·.isOk)
  | setProxyProtocol on => (change isPrint o w name fun s => Tunnels.setProxyProtocol s on).map id (·.isOk)
  | ensureTelegramPort p => (Tunnels.ensureTelegramPort isPrint o w name p).map id (·.isOk)
  | ensureSocksPort p => (Tunnels.ensureSocksPort isPrint o w name p).map id (·.isOk)

def named : Call → List Key
  | editTunnel host tunnelPort ports =>
    (if tunnelPort = [] ∧ host = [] then [] else [.bindAddr, .remoteAddr]) ++ if ports = [] then [] else [.ports]
  | setFallbackAddrs _ => [.fallbackAddrs]
  | setLimits _ _ => [.maxConnections, .bandwidthMbps]
  | setMSS _ => [.mss]
  | setLoadBalance _ => [.loadBalance]
  | setProxyProtocol _ => [.proxyProtocol]
  | ensureTelegramPort _ => [.ports]
  | ensureSocksPort _ => [.ports]

theorem obfs_not_mem_named (c : Call) : Key.obfs ∉ c.named := by
  cases c with
  | editTunnel host tunnelPort ports =>
    simp only [named]
    split <;> split <;> decide
  | _ => simp [named]

/-- The strings that a call puts into the file of the tunnel can be read back. -/
def Readable (s : TunnelSpec) : Call → Prop
  | editTunnel host _ ports =>
    (host ≠ [] → Quotable (trimSpace host)) ∧ ∀ p ∈ visiblePorts ports s.token, Quotable p
  | setFallbackAddrs addrs => ∀ a ∈ addrs, trimSpace a ≠ [] → Quotable (trimSpace a)
  | _ => True

def Idle (s : TunnelSpec) : Call → Prop
  | ensureTelegramPort _ => ∃ port, findTelegram s.ports = .bound port
  | ensureSocksPort _ => (findRelay s.token s.ports).isSome = true
  | _ => False

end Call

/-- The file of the tunnel is a configuration before and after, and no other field is another one. -/
def OnlyNamed (named : List Key) (w w' : World) (name : Str) : Prop :=
  ∃ old new, (w.files (configPath name)).bind decode = some old ∧ (w'.files (configPath name)).bind decode = some new ∧
    ∀ k ∉ named, new.server k = old.server k ∧ new.client k = old.client k

theorem applySpec_ok (h : (applySpec isPrint o w t).2 = .ok ()) :
    (applySpec isPrint o w t).1.files (configPath t.name) = some (t.render isPrint) := by
  unfold applySpec at *
  dsimp only at *
  cases hprev : (if o.read then w.files (configPath t.name) else none) with
  | none => rw [hprev] at h; cases h
  | some prev =>
    rw [hprev] at h
    dsimp only at *
    cases save_stops o w t.name (t.render isPrint) with
    | mkdir _ hsave => rw [hsave] at h; cases h
    | config _ hsave => rw [hsave] at h; cases h
    | unit _ hsave => rw [hsave] at h; cases h
    | reload _ hsave => rw [hsave] at h; cases h
    | start _ hsave => rw [hsave] at h; cases h
    | done _ hsave =>
      rw [hsave] at h ⊢
      dsimp only at h ⊢
      split at h
      · cases h
      next hrestart =>
        split at h
        next hsettled =>
          rw [if_neg hrestart, if_pos hsettled]
          simp only [World.ctl_files, saved_files]
        next => cases h

theorem change_ok {name : Str} {edit : TunnelSpec → Except EditError TunnelSpec}
    (h : (change isPrint o w name edit).2.isOk = true) :
    ∃ t t', loadSpec name (w.files (configPath name)) = .ok t ∧ edit t = .ok t' ∧
      (change isPrint o w name edit).1.files (configPath t'.name) = some (t'.render isPrint) := by
  unfold change at *
  cases hload : loadSpec name (w.files (configPath name)) with
  | error e => rw [hload] at h; cases h
  | ok t =>
    rw [hload] at h
    dsimp only at *
    cases hedit : edit t with
    | error e => rw [hedit] at h; cases h
    | ok t' =>
      rw [hedit] at h
      dsimp only at *
      refine ⟨t, t', rfl, hedit, ?_⟩
      have hwritten := @applySpec_ok isPrint o w t'
      generalize applySpec isPrint o w t' = r at *
      obtain ⟨w', _ | ⟨⟩⟩ := r
      · cases h
      · exact hwritten rfl

theorem saveAndRestart_ok {name : Str} (h : (saveAndRestart isPrint o w name t).2 = .ok ()) :
    (saveAndRestart isPrint o w name t).1.files (configPath t.name) = some (t.render isPrint) := by
  unfold saveAndRestart at *
  cases save_stops o w t.name (t.render isPrint) with
  | mkdir _ hsave => rw [hsave] at h; cases h
  | config _ hsave => rw [hsave] at h; cases h
  | unit _ hsave => rw [hsave] at h; cases h
  | reload _ hsave => rw [hsave] at h; cases h
  | start _ hsave => rw [hsave] at h; cases h
  | done _ hsave =>
    rw [hsave]
    dsimp only
    rw [World.ctl_files, World.ctl_files, saved_files]

theorem quoted_reloaded (hq : ∀ x ∈ s.strings, Quotable x) (hrole : s.reloaded.role = s.role) :
    ∀ k, s.reloaded.prints k = true → Quoted (s.reloaded.item k) := by
  intro k hk
  rw [TunnelSpec.prints_of_role hrole] at hk
  rw [item_reloaded hk]
  exact fun v hv => TunnelSpec.strings_quotable.mp hq k hk v (item_of_item_plain hv)

theorem Edits.strings_quotable {named : List Key} {readable : Prop} (he : Edits named readable t t')
    (hq : ∀ k, t.prints k = true → Quoted (t.item k)) : (∀ x ∈ t'.strings, Quotable x) ↔ readable := by
  rw [TunnelSpec.strings_quotable, TunnelSpec.prints_of_role he.role, ← he.strings hq]
  refine ⟨fun h k _ => h k, fun h k hk => ?_⟩
  by_cases hmem : k ∈ named
  · exact h k hmem hk
  · rw [he.frame k hmem]
    exact hq k hk

theorem config_same_iff {k : Key} (hrole : t'.role = s.role) :
    t'.config.server k = s.config.server k ∧ t'.config.client k = s.config.client k ↔
      t'.sectionFor s.prints k = s.sectionFor s.prints k := by
  unfold TunnelSpec.config TunnelSpec.prints
  rw [hrole]
  split
  · exact and_iff_left rfl
  · exact and_iff_right rfl

theorem onlyNamed_iff_of_edits {named : List Key} {readable : Prop} (hs : s.Made) (hq : ∀ x ∈ s.strings, Quotable x)
    (he : Edits named readable s.reloaded t') (hobfs : Key.obfs ∉ named)
    (hold : w.files (configPath s.name) = some (s.render isPrint))
    (hnew : w'.files (configPath s.name) = some (t'.render isPrint)) :
    OnlyNamed named w w' s.name ↔ s.obfs = [] ∧ readable := by
  obtain ⟨hrole, hname, hplain⟩ := reloaded_role hs
  have hprintable : t'.Printable := by
    refine ⟨?_, fun htls => ?_⟩
    · rw [he.name, hname]
      exact hs.name
    · rw [he.obfs, hplain] at htls
      exact lit_tls_ne htls.1.symm
  have hdecode : ∀ new, decode (t'.render isPrint) = some new ↔ readable ∧ new = t'.config := by
    intro new
    rw [TunnelSpec.decode_render hprintable, he.strings_quotable (quoted_reloaded hq hrole)]
  have hitem : ∀ k ∉ named, s.prints k = true → t'.item k = { s with obfs := [] }.item k :=
    fun k hk hp => (he.frame k hk).trans (item_reloaded hp)
  unfold OnlyNamed
  rw [hold, hnew]
  simp only [Option.bind_some, TunnelSpec.decode_render hs.printable, hdecode]
  constructor
  · rintro ⟨old, new, ⟨-, rfl⟩, ⟨hr, rfl⟩, hsame⟩
    refine ⟨?_, hr⟩
    have hprints : s.prints .obfs = true := by
      unfold TunnelSpec.prints
      split <;> rfl
    have hkey := (config_same_iff (he.role.trans hrole)).mp (hsame .obfs hobfs)
    rw [TunnelSpec.sectionFor, TunnelSpec.sectionFor, if_pos hprints, if_pos hprints, hitem .obfs hobfs hprints] at hkey
    by_contra hne
    rw [show s.item .obfs = some (.str s.obfs) from if_pos hne] at hkey
    have hempty : Value.str [] = .str s.obfs := hkey
    exact hne (Value.str.inj hempty).symm
  · rintro ⟨hnone, hr⟩
    refine ⟨s.config, t'.config, ⟨hq, rfl⟩, ⟨hr, rfl⟩, fun k hk => ?_⟩
    rw [config_same_iff (he.role.trans hrole)]
    have hsame : { s with obfs := [] } = s := by rw [← hnone]
    unfold TunnelSpec.sectionFor
    split
    next hp => rw [hitem k hk hp, hsame]
    next => rfl

/-! ## Every call -/

theorem change_onlyNamed_iff {named : List Key} {readable : Prop} {edit : TunnelSpec → Except EditError TunnelSpec}
    (hs : s.Made) (hfile : w.files (configPath s.name) = some (s.render isPrint))
    (hok : (change isPrint o w s.name edit).2.isOk = true) (hobfs : Key.obfs ∉ named)
    (hedits : ∀ t', edit s.reloaded = .ok t' → Edits named readable s.reloaded t') :
    OnlyNamed named w (change isPrint o w s.name edit).1 s.name ↔ s.obfs = [] ∧ readable := by
  obtain ⟨t, t', hload, hedit, hwritten⟩ := change_ok hok
  rw [hfile] at hload
  obtain ⟨hq, rfl⟩ := loadSpec_render hs hload
  have he := hedits t' hedit
  rw [he.name, (reloaded_role hs).2.1] at hwritten
  exact onlyNamed_iff_of_edits hs hq he hobfs hfile hwritten

theorem onlyNamed_of_files {named : List Key} (hs : s.Made) (hq : ∀ x ∈ s.strings, Quotable x)
    (hfile : w.files (configPath s.name) = some (s.render isPrint)) (hsame : w'.files = w.files) :
    OnlyNamed named w w' s.name := by
  have hdecode : decode (s.render isPrint) = some s.config := (TunnelSpec.decode_render hs.printable).mpr ⟨hq, rfl⟩
  refine ⟨s.config, s.config, ?_, ?_, fun _ _ => ⟨rfl, rfl⟩⟩
  · rw [hfile]
    exact hdecode
  · rw [hsame, hfile]
    exact hdecode

theorem reloaded_ports (hrole : s.role = lit "server") : s.reloaded.ports = s.ports := by
  unfold TunnelSpec.reloaded
  rw [if_pos hrole]
  simp only [serverSpec, strs_sectionFor]
  rfl

theorem reloaded_token : s.reloaded.token = s.token := by
  unfold TunnelSpec.reloaded
  split <;> simp only [serverSpec, clientSpec, str_sectionFor] <;> rfl

theorem saveAndRestart_onlyNamed_iff {ports : List Str} (hs : s.Made) (hq : ∀ x ∈ s.strings, Quotable x)
    (hrole : s.role = lit "server") (hports : (∀ p ∈ s.ports, Quotable p) → ∀ p ∈ ports, Quotable p)
    (hfile : w.files (configPath s.name) = some (s.render isPrint))
    (hok : (saveAndRestart isPrint o w s.name { s.reloaded with ports := ports }).2 = .ok ()) :
    OnlyNamed [.ports] w (saveAndRestart isPrint o w s.name { s.reloaded with ports := ports }).1 s.name ↔
      s.obfs = [] := by
  obtain ⟨hrole', hname, -⟩ := reloaded_role hs
  have hwritten := saveAndRestart_ok hok
  have he : Edits [.ports] True s.reloaded { s.reloaded with ports := ports } :=
    ports_edits (by rwa [reloaded_ports hrole]) (hrole'.trans hrole)
  have hname' : ({ s.reloaded with ports := ports } : TunnelSpec).name = s.name := hname
  rw [hname'] at hwritten
  rw [onlyNamed_iff_of_edits hs hq he (by decide) hfile hwritten, and_true]

theorem awaitPort_ok {p : Probes} {port : Int} {r : World × Except EditError Unit}
    (h : (awaitPort p port r).2.isOk = true) : r.2 = .ok () ∧ (awaitPort p port r).1 = r.1 := by
  obtain ⟨w, _ | ⟨⟩⟩ := r
  · cases h
  · exact ⟨rfl, rfl⟩

theorem ensureTelegramPort_onlyNamed_iff {p : Probes} (hs : s.Made)
    (hfile : w.files (configPath s.name) = some (s.render isPrint))
    (hok : (ensureTelegramPort isPrint o w s.name p).2.isOk = true) :
    OnlyNamed [.ports] w (ensureTelegramPort isPrint o w s.name p).1 s.name ↔
      (∃ port, findTelegram s.ports = .bound port) ∨ s.obfs = [] ∧ True := by
  unfold ensureTelegramPort at *
  cases hload : loadServerSpec s.name (w.files (configPath s.name)) with
  | error e => rw [hload] at hok; cases hok
  | ok t =>
    rw [hload] at hok
    rw [hfile] at hload
    obtain ⟨hq, rfl, hrole⟩ := loadServerSpec_render hs hload
    dsimp only at hok ⊢
    rw [reloaded_ports hrole] at hok ⊢
    cases hfind : findTelegram s.ports with
    | bare port ports =>
      rw [hfind] at hok
      obtain ⟨hsave, hworld⟩ := awaitPort_ok hok
      dsimp only
      rw [hworld, saveAndRestart_onlyNamed_iff hs hq hrole (findTelegram_quotable hfind) hfile hsave]
      simp
    | bound port =>
      refine iff_of_true (onlyNamed_of_files hs hq hfile ?_) (.inl ⟨port, rfl⟩)
      dsimp only
      split <;> rfl
    | absent =>
      rw [hfind] at hok
      obtain ⟨hsave, hworld⟩ := awaitPort_ok hok
      have hports : (∀ q ∈ s.ports, Quotable q) →
          ∀ q ∈ s.ports ++ [telegramMapping p.randomPort.1], Quotable q :=
        fun hold => List.forall_mem_append.mpr ⟨hold, by simpa using quotable_telegramMapping _⟩
      dsimp only
      rw [hworld, saveAndRestart_onlyNamed_iff hs hq hrole hports hfile hsave]
      simp

theorem ensureSocksPort_onlyNamed_iff {p : Probes} (hs : s.Made)
    (hfile : w.files (configPath s.name) = some (s.render isPrint))
    (hok : (ensureSocksPort isPrint o w s.name p).2.isOk = true) :
    OnlyNamed [.ports] w (ensureSocksPort isPrint o w s.name p).1 s.name ↔
      (findRelay s.token s.ports).isSome = true ∨ s.obfs = [] ∧ True := by
  unfold ensureSocksPort at *
  cases hload : loadServerSpec s.name (w.files (configPath s.name)) with
  | error e => rw [hload] at hok; cases hok
  | ok t =>
    rw [hload] at hok
    rw [hfile] at hload
    obtain ⟨hq, rfl, hrole⟩ := loadServerSpec_render hs hload
    have hrelay : findRelay s.token s.ports = findRelay s.reloaded.token s.reloaded.ports := by
      rw [reloaded_ports hrole, reloaded_token]
    rw [hrelay]
    dsimp only at hok ⊢
    cases hfind : findRelay s.reloaded.token s.reloaded.ports with
    | some n => exact iff_of_true (onlyNamed_of_files hs hq hfile rfl) (.inl rfl)
    | none =>
      rw [hfind] at hok
      have hports : (∀ q ∈ s.ports, Quotable q) →
          ∀ q ∈ s.reloaded.ports ++ [socksMapping p.randomPort.1 s.reloaded.token], Quotable q := by
        rw [reloaded_ports hrole]
        exact fun hold => List.forall_mem_append.mpr ⟨hold, by simpa using quotable_socksMapping _ _⟩
      have hiff := @saveAndRestart_onlyNamed_iff isPrint o w s _ hs hq hrole hports hfile
      dsimp only at hok ⊢
      generalize saveAndRestart isPrint o w s.name
        { s.reloaded with ports := s.reloaded.ports ++ [socksMapping p.randomPort.1 s.reloaded.token] } = r at *
      obtain ⟨w', _ | ⟨⟩⟩ := r
      · cases hok
      · rw [hiff rfl]
        simp

/-- A call that succeeds changes only what it names exactly when it has nothing to write, or when the tunnel has no
obfuscation to lose and the strings of the call can be read back. -/
theorem call_onlyNamed_iff (c : Call) (hb : buildSpec m req = .ok s)
    (hfile : w.files (configPath s.name) = some (s.render isPrint)) (hok : (c.run isPrint o w s.name).2 = true) :
    OnlyNamed c.named w (c.run isPrint o w s.name).1 s.name ↔ c.Idle s ∨ s.obfs = [] ∧ c.Readable s := by
  have hs := buildSpec_made hb
  have hobfs := c.obfs_not_mem_named
  cases c with
  | editTunnel host tunnelPort ports =>
    refine (change_onlyNamed_iff hs hfile hok hobfs fun t' ht' => ?_).trans (or_iff_right not_false).symm
    have he := editTunnel_edits ht'
    rwa [reloaded_token] at he
  | setFallbackAddrs addrs =>
    exact (change_onlyNamed_iff hs hfile hok hobfs fun t' => setFallbackAddrs_edits).trans (or_iff_right not_false).symm
  | setLimits conns mbps =>
    exact (change_onlyNamed_iff hs hfile hok hobfs fun t' => setLimits_edits).trans (or_iff_right not_false).symm
  | setMSS mss =>
    exact (change_onlyNamed_iff hs hfile hok hobfs fun t' => setMSS_edits).trans (or_iff_right not_false).symm
  | setLoadBalance on =>
    exact (change_onlyNamed_iff hs hfile hok hobfs fun t' => setLoadBalance_edits).trans (or_iff_right not_false).symm
  | setProxyProtocol on =>
    exact (change_onlyNamed_iff hs hfile hok hobfs fun t' => setProxyProtocol_edits).trans (or_iff_right not_false).symm
  | ensureTelegramPort p => exact ensureTelegramPort_onlyNamed_iff hs hfile hok
  | ensureSocksPort p => exact ensureSocksPort_onlyNamed_iff hs hfile hok

/-! ## A server with and without obfuscation -/

def onDisk (s : TunnelSpec) : World := .one (configPath s.name) (s.render fun _ => true) true

def limited (s : TunnelSpec) : World × Bool := (Call.setLimits 1 1).run (fun _ => true) {} (onDisk s) s.name

theorem loadSpec_of_strings (hs : s.Made) (hq : ∀ x ∈ s.strings, Quotable x) (hrole : s.role = lit "server") :
    loadSpec s.name (some (s.render isPrint)) = .ok s.reloaded := by
  obtain ⟨-, hbind⟩ | ⟨hclient, -⟩ := hs.role
  · have hdecode : decode (s.render isPrint) = some s.config := (TunnelSpec.decode_render hs.printable).mpr ⟨hq, rfl⟩
    have hserver : s.config.server = s.sectionFor Key.serverPrints := by rw [TunnelSpec.config, if_pos hrole]
    have hne : (s.sectionFor Key.serverPrints).str .bindAddr ≠ [] := by
      rw [str_sectionFor]
      exact hbind
    rw [loadSpec, if_neg (Option.some_ne_none _), loadServerSpec, Option.bind_some, hdecode]
    dsimp only
    rw [hserver, if_neg hne, TunnelSpec.reloaded, if_pos hrole]
  · rw [hclient] at hrole
    exact absurd hrole (by decide +kernel)

theorem applySpec_succeeds {prev : Str} (h : w.files (configPath t.name) = some prev) :
    (applySpec isPrint {} w t).2 = .ok () := by
  unfold applySpec
  dsimp only
  rw [if_pos rfl, h]
  rfl

theorem limited_succeeds (hs : s.Made) (hq : ∀ x ∈ s.strings, Quotable x) (hrole : s.role = lit "server") :
    (limited s).2 = true := by
  obtain ⟨hrole', hname, -⟩ := reloaded_role hs
  have hfile : (onDisk s).files (configPath s.name) = some (s.render fun _ => true) := World.one_files ..
  have hlimits : setLimits s.reloaded 1 1 = .ok { s.reloaded with maxConnections := 1, bandwidthMbps := 1 } := by
    rw [setLimits, require, require, if_pos (hrole'.trans hrole)]
    rfl
  have happly : (applySpec (fun _ => true) {} (onDisk s) { s.reloaded with maxConnections := 1, bandwidthMbps := 1 }).2 =
      .ok () := applySpec_succeeds ((congrArg (fun name => (onDisk s).files (configPath name)) hname).trans hfile)
  unfold limited Call.run change
  dsimp only
  rw [hfile, loadSpec_of_strings hs hq hrole]
  dsimp only
  rw [hlimits]
  dsimp only
  generalize applySpec (fun _ => true) {} (onDisk s) { s.reloaded with maxConnections := 1, bandwidthMbps := 1 } = r at *
  obtain ⟨w', _ | ⟨⟩⟩ := r
  · cases happly
  · rfl

theorem limited_onlyNamed_iff (hs : s.Made) (hok : (limited s).2 = true) :
    OnlyNamed (Call.setLimits 1 1).named (onDisk s) (limited s).1 s.name ↔ s.obfs = [] ∧ True :=
  change_onlyNamed_iff hs (World.one_files ..) hok (by decide) fun _ => setLimits_edits

def serverRequest (transport obfs : Str) : TunnelRequest :=
  { name := lit "a", role := lit "server", transport := transport, token := lit "t", port := lit "1"
    ports := [lit "1"], obfs := obfs }

def serverOf (transport obfs : Str) : TunnelSpec :=
  (buildSpec .blank (serverRequest transport obfs)).toOption.getD {}

theorem tcp_limits_onlyNamed :
    buildSpec .blank (serverRequest (lit "tcp") []) = .ok (serverOf (lit "tcp") []) ∧
      (limited (serverOf (lit "tcp") [])).2 = true ∧
      OnlyNamed (Call.setLimits 1 1).named (onDisk (serverOf (lit "tcp") [])) (limited (serverOf (lit "tcp") [])).1
        (serverOf (lit "tcp") []).name := by
  have hbuilt : buildSpec .blank (serverRequest (lit "tcp") []) = .ok (serverOf (lit "tcp") []) := by decide +kernel
  have hgraphic : ∀ x ∈ (serverOf (lit "tcp") []).strings, ∀ b ∈ x, Graphic b := by decide +kernel
  have hrole : (serverOf (lit "tcp") []).role = lit "server" := by decide +kernel
  have hobfs : (serverOf (lit "tcp") []).obfs = [] := by decide +kernel
  have hok := limited_succeeds (buildSpec_made hbuilt) (fun x hx => quotable_of_graphic (hgraphic x hx)) hrole
  exact ⟨hbuilt, hok, (call_onlyNamed_iff _ hbuilt (World.one_files ..) hok).mpr (.inr ⟨hobfs, trivial⟩)⟩

/-- Limits are set on a server with obfuscation, and the obfuscation is gone. -/
theorem frp_limits_drop_obfs :
    buildSpec .blank (serverRequest (lit "frp") (lit "noise")) = .ok (serverOf (lit "frp") (lit "noise")) ∧
      (limited (serverOf (lit "frp") (lit "noise"))).2 = true ∧
      ¬ OnlyNamed (Call.setLimits 1 1).named (onDisk (serverOf (lit "frp") (lit "noise")))
        (limited (serverOf (lit "frp") (lit "noise"))).1 (serverOf (lit "frp") (lit "noise")).name := by
  have hbuilt : buildSpec .blank (serverRequest (lit "frp") (lit "noise")) = .ok (serverOf (lit "frp") (lit "noise")) := by
    decide +kernel
  have hgraphic : ∀ x ∈ (serverOf (lit "frp") (lit "noise")).strings, ∀ b ∈ x, Graphic b := by decide +kernel
  have hrole : (serverOf (lit "frp") (lit "noise")).role = lit "server" := by decide +kernel
  have hobfs : (serverOf (lit "frp") (lit "noise")).obfs ≠ [] := by decide +kernel
  have hs := buildSpec_made hbuilt
  have hok := limited_succeeds hs (fun x hx => quotable_of_graphic (hgraphic x hx)) hrole
  exact ⟨hbuilt, hok, fun honly => hobfs ((limited_onlyNamed_iff hs hok).mp honly).1⟩

end ArangeTun.Tunnels
