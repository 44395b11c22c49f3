import ArangeTun.Cmd.Reload
import ArangeTun.Go.Lemmas.HostPort

/-! # Which configurations are let through -/

namespace ArangeTun.Cmd

open Go Transition

variable {ρ : Type} {env : Env ρ} {cfg raw m m' : Config ρ}

/-! ## The checks -/

def ValidProxy (env : Env ρ) (proxy : Str) : Prop :=
  trimSpace proxy = [] ∨ ∃ u, env.parseURL (trimSpace proxy) = some u ∧ (proxyScheme u.scheme).isSome = true ∧
    (splitHostPort u.host).isSome = true

def OutboundSet (cfg : Config ρ) : Prop :=
  trimSpace cfg.client.proxy ≠ [] ∨ cfg.client.localAddr ≠ [] ∨ cfg.client.interface ≠ [] ∨ cfg.client.soMark ≠ 0

structure ValidOutbound (env : Env ρ) (cfg : Config ρ) : Prop where
  localAddr : cfg.client.localAddr = [] ∨ env.resolveTCPAddr (withPort cfg.client.localAddr) = true
  interface : cfg.client.interface = [] ∨ env.interfaceByName cfg.client.interface = true
  mark : 0 ≤ cfg.client.soMark
  stream : cfg.client.transport ∉ datagramTransports

structure ValidSpoof (cfg : Config ρ) : Prop where
  profiles : ∀ p ∈ [(spoofSide cfg).spoofProfile, (spoofSide cfg).spoofUplink, (spoofSide cfg).spoofDownlink],
    (parseSpoofProfile p).isSome = true
  peer : cfg.server.transport = .spoof → isIPv4 cfg.server.spoofPeerIP = true
  pool : ∀ ip ∈ (spoofSide cfg).spoofSrcPool.getD [], isIPv4 ip = true
  pipe : (spoofSide cfg).spoofPipe = true → (splitHostPort (spoofSide cfg).pipeAddr).isSome = true

/-- What a configuration has to be for the checks of `applyDefaults` to let it through. -/
structure Accepted (env : Env ρ) (cfg : Config ρ) : Prop where
  proxy : ValidProxy env cfg.client.proxy
  outbound : OutboundSet cfg → ValidOutbound env cfg
  rawSocket : ∀ t ∈ [TransportType.xdi, .spoof, .pck], usesTransport cfg t = true →
    env.goos = lit "linux" ∧ env.euid = 0
  spoof : usesTransport cfg .spoof = true → ValidSpoof cfg

theorem parseProxy_cases (env : Env ρ) (proxy : Str) :
    (ValidProxy env proxy ∧ ∃ p, parseProxy env proxy = .ok p ∧ (p.isSome = true ↔ trimSpace proxy ≠ [])) ∨
      ¬ ValidProxy env proxy ∧ ∃ err, parseProxy env proxy = .error err := by
  unfold parseProxy ValidProxy
  by_cases hraw : trimSpace proxy = []
  · simp [hraw]
  cases hu : env.parseURL (trimSpace proxy) with
  | none => simp [hraw, hu]
  | some u =>
    cases hscheme : proxyScheme u.scheme with
    | none => simp [hraw, hu, hscheme]
    | some scheme =>
      -- the empty host has no port either
      by_cases hhost : u.host = []
      · simp [hraw, hu, hscheme, hhost, splitHostPort_eq_none (List.not_mem_nil)]
      cases hport : splitHostPort u.host with
      | none => simp [hraw, hu, hscheme, hhost, hport]
      | some hp => simp [hraw, hu, hscheme, hhost, hport]

theorem Outbound.isSet_iff (o : Outbound) :
    o.isSet = true ↔ o.proxy.isSome = true ∨ o.localAddr ≠ [] ∨ o.interface ≠ [] ∨ o.mark ≠ 0 := by
  simp [Outbound.isSet, or_assoc]

theorem Outbound.validate_eq_ok (o : Outbound) :
    o.validate env = .ok () ↔
      (o.localAddr = [] ∨ env.resolveTCPAddr (withPort o.localAddr) = true) ∧
        (o.interface = [] ∨ env.interfaceByName o.interface = true) ∧ 0 ≤ o.mark := by
  simp only [Outbound.validate, check_bind_eq_ok, require_eq_ok]

theorem validOutbound_iff (proxy : Option ProxyConfig) :
    ValidOutbound env cfg ↔
      (outboundOf cfg proxy).validate env = .ok () ∧ cfg.client.transport ∉ datagramTransports := by
  rw [Outbound.validate_eq_ok]
  exact ⟨fun h => ⟨⟨h.localAddr, h.interface, h.mark⟩, h.stream⟩, fun ⟨⟨ha, hi, hm⟩, ht⟩ => ⟨ha, hi, hm, ht⟩⟩

theorem checkOutbound_eq_ok :
    checkOutbound env cfg = .ok () ↔
      ValidProxy env cfg.client.proxy ∧ (OutboundSet cfg → ValidOutbound env cfg) := by
  obtain ⟨hvalid, proxy, hproxy, hsome⟩ | ⟨hvalid, err, hproxy⟩ := parseProxy_cases env cfg.client.proxy
  · have hset : (outboundOf cfg proxy).isSet = true ↔ OutboundSet cfg := by
      rw [Outbound.isSet_iff, OutboundSet, ← hsome]
      rfl
    rw [checkOutbound, hproxy]
    dsimp only
    rw [check_if_eq_ok, hset, validOutbound_iff proxy]
    simp only [hvalid, true_and]
    refine imp_congr_right fun _ => ?_
    cases (outboundOf cfg proxy).validate env with
    | error err => simp
    | ok u => simp
  · simp [checkOutbound, hproxy, hvalid]

theorem checkRawSocket_eq_ok {t : TransportType} :
    checkRawSocket env t = .ok () ↔ env.goos = lit "linux" ∧ env.euid = 0 := by
  simp [checkRawSocket]

theorem checkSpoofSettings_eq_ok : checkSpoofSettings cfg = .ok () ↔ ValidSpoof cfg := by
  simp only [checkSpoofSettings, check_bind_eq_ok, check_forM_eq_ok, require_eq_ok]
  constructor
  · rintro ⟨hp, hi, hs, ha⟩
    exact ⟨hp, hi, hs, ha⟩
  · intro h
    exact ⟨h.profiles, h.peer, h.pool, h.pipe⟩

theorem checks_eq_ok : checks env cfg = .ok () ↔ Accepted env cfg := by
  simp only [checks, check_bind_eq_ok, checkOutbound_eq_ok, checkXdi, checkPck, checkSpoof, check_if_eq_ok,
    checkRawSocket_eq_ok, checkSpoofSettings_eq_ok]
  constructor
  · rintro ⟨⟨hproxy, hout⟩, hxdi, hspoof, hpck⟩
    refine ⟨hproxy, hout, ?_, fun hu => (hspoof hu).2⟩
    intro t ht
    simp only [List.mem_cons, List.not_mem_nil, or_false] at ht
    obtain rfl | rfl | rfl := ht
    · exact hxdi
    · exact fun hu => (hspoof hu).1
    · exact hpck
  · intro h
    exact ⟨⟨h.proxy, h.outbound⟩, h.rawSocket _ (by simp), fun hu => ⟨h.rawSocket _ (by simp) hu, h.spoof hu⟩,
      h.rawSocket _ (by simp)⟩

theorem applyDefaults_eq_ok :
    applyDefaults env raw = .ok m ↔ Accepted env (raw.withDefaults env) ∧ m = raw.withDefaults env := by
  rw [applyDefaults, check_bind_eq_ok, checks_eq_ok]
  simp [eq_comm]

def UsableRole (cfg : Config ρ) : Prop :=
  if cfg.wireGuard.role ≠ [] then cfg.wireGuard.role ∈ [lit "client", lit "server"]
  else if cfg.packet.role ≠ [] then cfg.packet.role ∈ [lit "client", lit "server"]
  else if cfg.ssh.role ≠ [] then True
  else if cfg.hedioum.role ≠ [] then cfg.hedioum.role ∈ [lit "iran", lit "foreign"]
  else cfg.server.bindAddr ≠ [] ∨ cfg.client.remoteAddr ≠ []

instance : Decidable (UsableRole cfg) := by
  unfold UsableRole
  infer_instance

theorem engineOf_eq_ok {role : Str} {engines : List (Str × Engine)} {err : Str → Fatal} :
    (∃ e, engineOf role engines err = .ok e) ↔ role ∈ engines.map Prod.fst := by
  unfold engineOf
  cases h : engines.lookup role with
  | none =>
    rw [List.lookup_eq_none_iff] at h
    simp only [reduceCtorEq, exists_false, List.mem_map, false_iff, not_exists, not_and]
    intro p hp heq
    simpa [heq] using h p hp
  | some e =>
    have hmem : (role, e) ∈ engines := by
      obtain ⟨l₁, l₂, rfl, -⟩ := List.lookup_eq_some_iff.mp h
      simp
    simp only [Except.ok.injEq, exists_eq', List.mem_map, true_iff]
    exact ⟨_, hmem, rfl⟩

theorem runEngine_eq_ok : (∃ e, runEngine cfg = .ok e) ↔ UsableRole cfg := by
  unfold runEngine UsableRole
  split_ifs with hw hp hs hh hb hr
  · exact engineOf_eq_ok
  · exact engineOf_eq_ok
  · simp
  · exact engineOf_eq_ok
  · simp [hb]
  · simp [hr]
  · simp_all

/-! ## What the engines start from -/

/-- The sockets of a server on tcp or stealth can be opened, its ports are ports, and its channels and its ticker can be
made. -/
structure TcpServes (env : Env ρ) (c : ServerConfig) : Prop where
  transport : c.transport = .tcp ∨ c.transport = .stealth
  memory : channelElements * c.channelSize ≤ env.memory
  bind : env.listens c.bindAddr = true
  heartbeat : 0 < (c.heartbeat * 10 ^ 9).bmod (2 ^ 64)
  ports : ∀ entry ∈ c.ports.getD [], ∃ listeners, Ports.parsePortMapping entry = .ok listeners ∧
    ∀ l ∈ listeners, env.listens l.localAddr = true
  streams : c.acceptUDP = false

structure SSHServes (env : Env ρ) (c : SSHConfig) : Prop where
  host : c.host ≠ []
  user : c.user ≠ []
  socksPort : 0 < c.socksPort
  socks : env.listens (joinHostPort (nonemptyOr (lit "127.0.0.1") c.socksBind) (itoa c.socksPort)) = true

def transports : List TransportType :=
  [.tcp, .stealth, .kcp, .xdi, .spoof, .pck, .quic, .tcpmux, .ws, .wss, .wsmux, .wssmux, .udp]

/-- A client on a transport there is, or one of frp, rathole or ssh, or a server on tcp or stealth. -/
def Starts (env : Env ρ) (cfg : Config ρ) : Prop :=
  match runEngine cfg with
  | .ok .client => cfg.client.transport ∈ transports
  | .ok .frpClient | .ok .ratholeClient => True
  | .ok .sshClient => SSHServes env cfg.ssh
  | .ok .server => TcpServes env cfg.server
  | _ => False

theorem startTransport_of_mem {t : TransportType} (h : t ∈ transports) (sc : SpoofConfig) :
    ∃ c, startTransport t sc = .ok c := by
  simp only [transports, List.mem_cons, List.not_mem_nil, or_false] at h
  unfold startTransport
  split_ifs <;> first | exact ⟨_, rfl⟩ | (exfalso; tauto)

theorem parsePortMappings_of_ok {listens : Str → Bool} {ports : List Str}
    (h : ∀ entry ∈ ports, ∃ listeners, Ports.parsePortMapping entry = .ok listeners ∧
      ∀ l ∈ listeners, listens l.localAddr = true) :
    (Ports.parsePortMappings ports).fatal = none ∧
      ∀ l ∈ (Ports.parsePortMappings ports).listeners, listens l.localAddr = true := by
  induction ports with
  | nil => exact ⟨rfl, List.forall_mem_nil _⟩
  | cons entry ports ih =>
    obtain ⟨⟨listeners, hparse, hlisten⟩, hrest⟩ := List.forall_mem_cons.mp h
    obtain ⟨hfatal, hall⟩ := ih hrest
    simp only [Ports.parsePortMappings, hparse]
    exact ⟨hfatal, List.forall_mem_append.mpr ⟨hlisten, hall⟩⟩

theorem TcpServes.starts {c : ServerConfig} (h : TcpServes env c) : tcpStart env c = .ok () := by
  obtain ⟨hfatal, hlisten⟩ := parsePortMappings_of_ok h.ports
  simp only [tcpStart, ServerConfig.parsed, hfatal, check_bind_eq_ok, require_eq_ok, check_forM_eq_ok]
  exact ⟨h.memory, h.bind, h.heartbeat, trivial, hlisten, h.streams⟩

theorem SSHServes.starts (h : SSHServes env cfg.ssh) : sshStart env cfg = .ok () := by
  simp only [sshStart, check_bind_eq_ok, require_eq_ok]
  exact ⟨h.host, h.user, h.socksPort, h.socks⟩

theorem Starts.usable (h : Starts env cfg) : UsableRole cfg := by
  refine runEngine_eq_ok.mp ?_
  cases he : runEngine cfg with
  | ok e => exact ⟨e, rfl⟩
  | error f =>
    rw [Starts, he] at h
    exact h.elim

theorem Starts.exit_eq_none {e : Engine} (h : Starts env cfg) (he : runEngine cfg = .ok e) : e.exit env cfg = none := by
  rw [Starts, he] at h
  cases e with
  | frpClient | ratholeClient => rfl
  | client =>
    obtain ⟨c, hc⟩ := startTransport_of_mem h cfg.client.toSpoofConfig
    rw [Engine.exit, clientStart, hc]
  | sshClient => rw [Engine.exit, h.starts]
  | server =>
    have hcarrier : serverStart cfg = .ok .tcp := if_pos h.transport
    rw [Engine.exit, hcarrier]
    simp only [h.starts]
  | _ => exact h.elim

theorem itoaLoop_eq_none {i : Nat} {n : Int} {acc : Str} : itoaLoop i n acc = none ↔ 10 ^ i ≤ n := by
  induction i generalizing n acc with
  | zero =>
    unfold itoaLoop
    split <;> simp <;> omega
  | succ i ih =>
    have hpos : (0 : Int) < 10 ^ i := by positivity
    unfold itoaLoop
    split
    · simp only [reduceCtorEq, false_iff]
      rw [pow_succ]
      omega
    · rw [ih, Int.le_ediv_iff_mul_le (by norm_num), pow_succ]

def WebPortFits (cfg : Config ρ) : Prop :=
  if cfg.server.bindAddr ≠ [] then cfg.server.webPort < 10 ^ 8 else cfg.client.webPort < 10 ^ 8

theorem webAddr_eq_none {port : Int} : webAddr port = none ↔ ¬ port < 10 ^ 8 := by
  unfold webAddr itoa8
  split
  · rw [Option.map_eq_none_iff]
    split
    · simp; omega
    · rw [itoaLoop_eq_none, not_lt]
  · simp; omega

theorem portsInUse_eq_none : portsInUse cfg = none ↔ ¬ WebPortFits cfg := by
  unfold portsInUse WebPortFits
  split
  · rw [Option.map_eq_none_iff, webAddr_eq_none]
  · exact webAddr_eq_none

end ArangeTun.Cmd
