import ArangeTun.Toml.Print
import ArangeTun.Tunnels.Spec

/-!
# The file of a tunnel

`Render` of internal/manage/config.go, with the functions it calls.
-/

namespace ArangeTun.Tunnels

open Go Toml

/-! ## The keys -/

inductive Key
  | bindAddr | remoteAddr | fallbackAddrs | transport | preset | token | obfs | tlsSni | acmeDomain | acmeEmail
  | channelSize | connectionPool | aggressivePool | keepalivePeriod | nodelay | loadBalance | healthFailover
  | retryInterval | dialTimeout | heartbeat | logLevel | logFormat | mss | soRcvbuf | soSndbuf | kcpMtu
  | kcpInterval | kcpResend | kcpNodelay | kcpNocongestion | kcpSndwnd | kcpRcvwnd | kcpAcknodelay
  | kcpDatashards | kcpParityshards | spoofProfile | spoofUplink | spoofDownlink | spoofSrcIp | spoofSrcPool
  | spoofPeerIp | spoofDstIp | spoofInterface | spoofSockbuf | spoofPeerSrcIp | spoofIcmpReply | spoofMtu
  | spoofTtlJitter | spoofRandomDscp | spoofShufflePort | spoofPortMin | spoofPortMax | spoofPadding
  | spoofPaddingMax | spoofFakeTls | spoofPipe | spoofPipeAddr | pckInterface | pckGatewayMac | pckFlags
  | acceptUdp | tlsCert | tlsKey | simpleAuth | muxCon | muxSession | muxVersion | muxFramesize
  | muxRecievebuffer | muxStreambuffer | proxyProtocol | zeroCopy | maxConnections | bandwidthMbps | sniffer
  | webPort | webBind | ports | edgeIp | proxy | localAddr | interface | soMark | stealth
  deriving DecidableEq

namespace Key

def name : Key → Str
  | .bindAddr => lit "bind_addr"
  | .remoteAddr => lit "remote_addr"
  | .fallbackAddrs => lit "fallback_addrs"
  | .transport => lit "transport"
  | .preset => lit "preset"
  | .token => lit "token"
  | .obfs => lit "obfs"
  | .tlsSni => lit "tls_sni"
  | .acmeDomain => lit "acme_domain"
  | .acmeEmail => lit "acme_email"
  | .channelSize => lit "channel_size"
  | .connectionPool => lit "connection_pool"
  | .aggressivePool => lit "aggressive_pool"
  | .keepalivePeriod => lit "keepalive_period"
  | .nodelay => lit "nodelay"
  | .loadBalance => lit "load_balance"
  | .healthFailover => lit "health_failover"
  | .retryInterval => lit "retry_interval"
  | .dialTimeout => lit "dial_timeout"
  | .heartbeat => lit "heartbeat"
  | .logLevel => lit "log_level"
  | .logFormat => lit "log_format"
  | .mss => lit "mss"
  | .soRcvbuf => lit "so_rcvbuf"
  | .soSndbuf => lit "so_sndbuf"
  | .kcpMtu => lit "kcp_mtu"
  | .kcpInterval => lit "kcp_interval"
  | .kcpResend => lit "kcp_resend"
  | .kcpNodelay => lit "kcp_nodelay"
  | .kcpNocongestion => lit "kcp_nocongestion"
  | .kcpSndwnd => lit "kcp_sndwnd"
  | .kcpRcvwnd => lit "kcp_rcvwnd"
  | .kcpAcknodelay => lit "kcp_acknodelay"
  | .kcpDatashards => lit "kcp_datashards"
  | .kcpParityshards => lit "kcp_parityshards"
  | .spoofProfile => lit "spoof_profile"
  | .spoofUplink => lit "spoof_uplink"
  | .spoofDownlink => lit "spoof_downlink"
  | .spoofSrcIp => lit "spoof_src_ip"
  | .spoofSrcPool => lit "spoof_src_pool"
  | .spoofPeerIp => lit "spoof_peer_ip"
  | .spoofDstIp => lit "spoof_dst_ip"
  | .spoofInterface => lit "spoof_interface"
  | .spoofSockbuf => lit "spoof_sockbuf"
  | .spoofPeerSrcIp => lit "spoof_peer_src_ip"
  | .spoofIcmpReply => lit "spoof_icmp_reply"
  | .spoofMtu => lit "spoof_mtu"
  | .spoofTtlJitter => lit "spoof_ttl_jitter"
  | .spoofRandomDscp => lit "spoof_random_dscp"
  | .spoofShufflePort => lit "spoof_shuffle_port"
  | .spoofPortMin => lit "spoof_port_min"
  | .spoofPortMax => lit "spoof_port_max"
  | .spoofPadding => lit "spoof_padding"
  | .spoofPaddingMax => lit "spoof_padding_max"
  | .spoofFakeTls => lit "spoof_fake_tls"
  | .spoofPipe => lit "spoof_pipe"
  | .spoofPipeAddr => lit "spoof_pipe_addr"
  | .pckInterface => lit "pck_interface"
  | .pckGatewayMac => lit "pck_gateway_mac"
  | .pckFlags => lit "pck_flags"
  | .acceptUdp => lit "accept_udp"
  | .tlsCert => lit "tls_cert"
  | .tlsKey => lit "tls_key"
  | .simpleAuth => lit "simple_auth"
  | .muxCon => lit "mux_con"
  | .muxSession => lit "mux_session"
  | .muxVersion => lit "mux_version"
  | .muxFramesize => lit "mux_framesize"
  | .muxRecievebuffer => lit "mux_recievebuffer"
  | .muxStreambuffer => lit "mux_streambuffer"
  | .proxyProtocol => lit "proxy_protocol"
  | .zeroCopy => lit "zero_copy"
  | .maxConnections => lit "max_connections"
  | .bandwidthMbps => lit "bandwidth_mbps"
  | .sniffer => lit "sniffer"
  | .webPort => lit "web_port"
  | .webBind => lit "web_bind"
  | .ports => lit "ports"
  | .edgeIp => lit "edge_ip"
  | .proxy => lit "proxy"
  | .localAddr => lit "local_addr"
  | .interface => lit "interface"
  | .soMark => lit "so_mark"
  | .stealth => lit "stealth"

def kind : Key → Kind
  | .channelSize | .connectionPool | .keepalivePeriod | .retryInterval | .dialTimeout | .heartbeat | .mss
  | .soRcvbuf | .soSndbuf | .kcpMtu | .kcpInterval | .kcpResend | .kcpNodelay | .kcpNocongestion | .kcpSndwnd
  | .kcpRcvwnd | .kcpDatashards | .kcpParityshards | .spoofSockbuf | .spoofMtu | .spoofPortMin | .spoofPortMax
  | .spoofPaddingMax | .muxCon | .muxSession | .muxVersion | .muxFramesize | .muxRecievebuffer | .muxStreambuffer
  | .maxConnections | .bandwidthMbps | .webPort | .soMark => .int
  | .aggressivePool | .nodelay | .loadBalance | .healthFailover | .kcpAcknodelay | .spoofIcmpReply
  | .spoofTtlJitter | .spoofRandomDscp | .spoofShufflePort | .spoofPadding | .spoofFakeTls | .spoofPipe
  | .acceptUdp | .simpleAuth | .proxyProtocol | .zeroCopy | .sniffer | .stealth => .bool
  | .fallbackAddrs | .spoofSrcPool | .pckFlags | .ports => .strs
  | _ => .str

def all : List Key :=
  [.acceptUdp, .acmeDomain, .acmeEmail, .aggressivePool, .bandwidthMbps, .bindAddr, .channelSize, .connectionPool,
    .dialTimeout, .edgeIp, .fallbackAddrs, .healthFailover, .heartbeat, .interface, .kcpAcknodelay, .kcpDatashards,
    .kcpInterval, .kcpMtu, .kcpNocongestion, .kcpNodelay, .kcpParityshards, .kcpRcvwnd, .kcpResend, .kcpSndwnd,
    .keepalivePeriod, .loadBalance, .localAddr, .logFormat, .logLevel, .maxConnections, .mss, .muxCon, .muxFramesize,
    .muxRecievebuffer, .muxSession, .muxStreambuffer, .muxVersion, .nodelay, .obfs, .pckFlags, .pckGatewayMac,
    .pckInterface, .ports, .preset, .proxy, .proxyProtocol, .remoteAddr, .retryInterval, .simpleAuth, .sniffer,
    .soMark, .soRcvbuf, .soSndbuf, .spoofDownlink, .spoofDstIp, .spoofFakeTls, .spoofIcmpReply, .spoofInterface,
    .spoofMtu, .spoofPadding, .spoofPaddingMax, .spoofPeerIp, .spoofPeerSrcIp, .spoofPipe, .spoofPipeAddr,
    .spoofPortMax, .spoofPortMin, .spoofProfile, .spoofRandomDscp, .spoofShufflePort, .spoofSockbuf, .spoofSrcIp,
    .spoofSrcPool, .spoofTtlJitter, .spoofUplink, .stealth, .tlsCert, .tlsKey, .tlsSni, .token, .transport, .webBind,
    .webPort, .zeroCopy]

theorem mem_all (k : Key) : k ∈ all := by cases k <;> decide

theorem names_ok : (all.map name).IsChain (· < ·) ∧
    (all.map name).all (fun u => !u.isEmpty && u.all fun b =>
      b == byte '_' || (decide (byte 'a' ≤ b) && decide (b ≤ byte 'z'))) = true := by decide +kernel

theorem name_injective : Function.Injective name := by
  have hnd : (all.map name).Nodup := by
    refine (List.isChain_iff_pairwise.mp names_ok.1).imp ?_
    rintro a _ hlt rfl
    exact List.lt_irrefl a hlt
  intro j k h
  exact List.inj_on_of_nodup_map hnd (mem_all j) (mem_all k) h

theorem name_bare (k : Key) : k.name ≠ [] ∧ ∀ b ∈ k.name, Bare b := by
  have hk := List.all_eq_true.mp names_ok.2 k.name (List.mem_map_of_mem (mem_all k))
  obtain ⟨hne, hbytes⟩ := (Bool.and_eq_true _ _).mp hk
  refine ⟨by simpa using hne, fun b hb => ?_⟩
  obtain hund | hletter := (Bool.or_eq_true _ _).mp (List.all_eq_true.mp hbytes b hb)
  · rw [eq_of_beq hund]
    decide
  · simp only [Bool.and_eq_true, decide_eq_true_eq] at hletter
    exact .inr (.inl hletter)

end Key

/-! ## The statements -/

def within (c : Prop) [Decidable c] (v : Option Value) : Option Value := if c then v else none

def positive (n : Int) : Option Value := within (0 < n) (some (.int n))

def nonempty (s : Str) : Option Value := within (s ≠ []) (some (.str s))

def nonemptyList (l : List Str) : Option Value := within (l ≠ []) (some (.strs l))

def flag (b : Bool) : Option Value := within (b = true) (some (.bool true))

def monitorBind (configured : Str) : Str := if configured = [] then lit "127.0.0.1" else configured

namespace TunnelSpec

variable (s : TunnelSpec)

def item : Key → Option Value
  | .bindAddr => some (.str s.bindAddr)
  | .remoteAddr => some (.str s.remoteAddr)
  | .fallbackAddrs => nonemptyList s.fallbackAddrs
  | .transport => some (.str s.transport)
  | .preset => nonempty s.preset
  | .token => some (.str s.token)
  | .obfs => nonempty s.obfs
  | .tlsSni => within (s.obfs = lit "tls") (nonempty s.tlsSni)
  -- printed in two places, each with its own test
  | .acmeDomain => within (s.obfs = lit "tls" ∨ needsTLS s.transport = true) (nonempty s.acmeDomain)
  | .acmeEmail =>
    within (s.obfs = lit "tls" ∨ needsTLS s.transport = true) (within (s.acmeDomain ≠ []) (nonempty s.acmeEmail))
  | .channelSize => some (.int s.channelSize)
  | .connectionPool => some (.int s.connectionPool)
  | .aggressivePool => some (.bool s.aggressivePool)
  | .keepalivePeriod => some (.int s.keepAlive)
  | .nodelay => some (.bool s.nodelay)
  | .loadBalance => flag s.loadBalance
  | .healthFailover => flag s.healthFailover
  | .retryInterval => some (.int 3)
  | .dialTimeout => some (.int 10)
  | .heartbeat => some (.int s.heartbeat)
  | .logLevel => some (.str s.logLevel)
  | .logFormat => nonempty s.logFormat
  -- writeTuning
  | .mss => positive s.mss
  | .soRcvbuf => positive s.soRcvBuf
  | .soSndbuf => positive s.soSndBuf
  -- writeKCP
  | .kcpMtu => within (isKCP s.transport = true) (some (.int s.kcpMTU))
  | .kcpInterval => within (isKCP s.transport = true) (some (.int s.kcpInterval))
  | .kcpResend => within (isKCP s.transport = true) (some (.int s.kcpResend))
  | .kcpNodelay => within (isKCP s.transport = true) (some (.int s.kcpNoDelay))
  | .kcpNocongestion => within (isKCP s.transport = true) (some (.int s.kcpNoCongestion))
  | .kcpSndwnd => within (isKCP s.transport = true) (some (.int s.kcpSndWnd))
  | .kcpRcvwnd => within (isKCP s.transport = true) (some (.int s.kcpRcvWnd))
  | .kcpAcknodelay => within (isKCP s.transport = true) (some (.bool s.kcpAckNoDelay))
  | .kcpDatashards => within (isKCP s.transport = true) (some (.int s.kcpDataShards))
  | .kcpParityshards => within (isKCP s.transport = true) (some (.int s.kcpParityShards))
  -- writeSpoof
  | .spoofProfile =>
    within (s.transport = lit "spoof") (some (.str (if s.spoofProfile = [] then lit "udp" else s.spoofProfile)))
  | .spoofUplink => within (s.transport = lit "spoof") (nonempty s.spoofUplink)
  | .spoofDownlink => within (s.transport = lit "spoof") (nonempty s.spoofDownlink)
  | .spoofSrcIp => within (s.transport = lit "spoof") (nonempty s.spoofSrcIP)
  | .spoofSrcPool => within (s.transport = lit "spoof") (nonemptyList s.spoofSrcPool)
  | .spoofPeerIp => within (s.transport = lit "spoof") (nonempty s.spoofPeerIP)
  | .spoofDstIp => within (s.transport = lit "spoof") (nonempty s.spoofDstIP)
  | .spoofInterface => within (s.transport = lit "spoof") (nonempty s.spoofInterface)
  | .spoofSockbuf => within (s.transport = lit "spoof") (positive s.spoofSockBuf)
  | .spoofPeerSrcIp => within (s.transport = lit "spoof") (nonempty s.spoofPeerSrcIP)
  | .spoofIcmpReply => within (s.transport = lit "spoof") (flag s.spoofICMPReply)
  | .spoofMtu => within (s.transport = lit "spoof") (positive s.spoofMTU)
  | .spoofTtlJitter => within (s.transport = lit "spoof") (flag s.spoofTTLJitter)
  | .spoofRandomDscp => within (s.transport = lit "spoof") (flag s.spoofRandomDSCP)
  | .spoofShufflePort => within (s.transport = lit "spoof") (flag s.spoofShufflePort)
  | .spoofPortMin => within (s.transport = lit "spoof") (within (s.spoofShufflePort = true) (positive s.spoofPortMin))
  | .spoofPortMax => within (s.transport = lit "spoof") (within (s.spoofShufflePort = true) (positive s.spoofPortMax))
  | .spoofPadding => within (s.transport = lit "spoof") (flag s.spoofPadding)
  | .spoofPaddingMax => within (s.transport = lit "spoof") (within (s.spoofPadding = true) (positive s.spoofPaddingMax))
  | .spoofFakeTls => within (s.transport = lit "spoof") (flag s.spoofFakeTLS)
  | .spoofPipe => within (s.transport = lit "spoof") (flag s.spoofPipe)
  | .spoofPipeAddr =>
    within (s.transport = lit "spoof") (within (s.spoofPipe = true)
      (some (.str (if s.spoofPipeAddr = [] then lit "127.0.0.1:51820" else s.spoofPipeAddr))))
  -- writePck
  | .pckInterface => within (s.transport = lit "pck") (nonempty s.pckInterface)
  | .pckGatewayMac => within (s.transport = lit "pck") (nonempty s.pckGatewayMAC)
  | .pckFlags => within (s.transport = lit "pck") (nonemptyList s.pckFlags)
  | .acceptUdp => within (s.transport = lit "tcp") (some (.bool s.acceptUDP))
  | .tlsCert => within (needsTLS s.transport = true) (some (.str s.tlsCert))
  | .tlsKey => within (needsTLS s.transport = true) (some (.str s.tlsKey))
  | .simpleAuth => within (needsTLS s.transport = true) (flag s.simpleAuth)
  | .muxCon => within (isMux s.transport = true) (some (.int s.muxCon))
  | .muxSession => within (isMux s.transport = true) (some (.int s.muxCon))
  | .muxVersion => within (isMux s.transport = true) (some (.int s.muxVersion))
  | .muxFramesize => within (isMux s.transport = true) (some (.int s.muxFrameSize))
  | .muxRecievebuffer => within (isMux s.transport = true) (some (.int s.muxRecvBuffer))
  | .muxStreambuffer => within (isMux s.transport = true) (some (.int s.muxStreamBuffer))
  | .proxyProtocol => within (supportsProxyProtocol s.transport = true) (some (.bool s.proxyProtocol))
  | .zeroCopy => flag s.zeroCopy
  | .maxConnections => positive s.maxConnections
  | .bandwidthMbps => positive s.bandwidthMbps
  | .sniffer => some (.bool s.sniffer)
  | .webPort => positive s.webPort
  | .webBind => within (0 < s.webPort) (some (.str (monitorBind s.webBind)))
  | .ports => some (.strs s.ports)
  | .edgeIp => within (isWS s.transport = true) (nonempty s.edgeIP)
  | .proxy => nonempty s.proxy
  | .localAddr => nonempty s.localAddr
  | .interface => nonempty s.interface
  | .soMark => within (s.soMark ≠ 0) (some (.int s.soMark))
  | .stealth => none

/-! The statements in their order -/

def writeTuning : List Key := [.mss, .soRcvbuf, .soSndbuf]

def writeKCP : List Key :=
  [.kcpMtu, .kcpInterval, .kcpResend, .kcpNodelay, .kcpNocongestion, .kcpSndwnd, .kcpRcvwnd, .kcpAcknodelay,
    .kcpDatashards, .kcpParityshards]

def writeSpoof : List Key :=
  [.spoofProfile, .spoofUplink, .spoofDownlink, .spoofSrcIp, .spoofSrcPool, .spoofPeerIp, .spoofDstIp, .spoofInterface,
    .spoofSockbuf, .spoofPeerSrcIp, .spoofIcmpReply, .spoofMtu, .spoofTtlJitter, .spoofRandomDscp, .spoofShufflePort,
    .spoofPortMin, .spoofPortMax, .spoofPadding, .spoofPaddingMax, .spoofFakeTls, .spoofPipe, .spoofPipeAddr]

def writePck : List Key := [.pckInterface, .pckGatewayMac, .pckFlags]

def acmeKeys (here : Bool) : List Key := if here then [.acmeDomain, .acmeEmail] else []

def serverOrder (obfsTLS certificate : Bool) : List Key :=
  List.flatten
    [[.bindAddr, .transport, .preset, .token, .obfs, .tlsSni], acmeKeys obfsTLS,
     [.channelSize, .keepalivePeriod, .nodelay, .heartbeat, .logLevel, .logFormat],
     writeTuning, writeKCP, writeSpoof, writePck,
     [.acceptUdp, .tlsCert, .tlsKey], acmeKeys certificate,
     [.simpleAuth, .muxCon, .muxVersion, .muxFramesize, .muxRecievebuffer, .muxStreambuffer, .proxyProtocol, .zeroCopy,
      .maxConnections, .bandwidthMbps, .sniffer, .webPort, .webBind, .ports]]

def clientOrder : List Key :=
  List.flatten
    [[.remoteAddr, .fallbackAddrs, .transport, .preset, .token, .obfs, .tlsSni, .connectionPool, .aggressivePool,
      .keepalivePeriod, .nodelay, .loadBalance, .healthFailover, .retryInterval, .dialTimeout, .logLevel, .logFormat],
     writeTuning, writeKCP, writeSpoof, writePck,
     [.edgeIp, .simpleAuth, .proxy, .localAddr, .interface, .soMark, .zeroCopy, .muxSession, .muxVersion, .muxFramesize,
      .muxRecievebuffer, .muxStreambuffer, .sniffer, .webPort, .webBind]]

def keys : List Key :=
  if s.role = lit "server" then serverOrder (s.obfs = lit "tls") (needsTLS s.transport) else clientOrder

def table : Str := if s.role = lit "server" then lit "server" else lit "client"

end TunnelSpec

def TunnelSpec.written (s : TunnelSpec) : List (Key × Value) := s.keys.filterMap fun k => (s.item k).map fun v => (k, v)

def itemLine : Key × Value → Line
  | (.ports, .strs l) => .block (Key.name .ports) l
  | (.fallbackAddrs, .strs l) => .block (Key.name .fallbackAddrs) l
  | (k, v) => .entry k.name v

def TunnelSpec.comments (s : TunnelSpec) : List Line :=
  [.comment (lit " Generated by arange-tun " ++ [0xe2, 0x80, 0x94] ++ lit " do not edit while the service is running."),
   .comment (lit " name = \"" ++ s.name ++ lit "\""),
   .blank]

def TunnelSpec.lines (s : TunnelSpec) : List Line :=
  s.comments ++ .header s.table :: s.written.map itemLine

def TunnelSpec.render (isPrint : Char → Bool) (s : TunnelSpec) : Str := text isPrint s.lines

end ArangeTun.Tunnels
