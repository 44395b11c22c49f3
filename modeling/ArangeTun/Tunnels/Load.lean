import ArangeTun.Tunnels.Render

/-!
# Reading the file of a tunnel

`toml.DecodeFile` into `Config` of config/config.go, and `loadServerSpec`, `loadClientSpec` and `LoadSpec` of
internal/manage/edit.go.
-/

namespace ArangeTun.Tunnels

open Go Toml

/-! ## config/config.go -/

def Key.ofServer : Key → Bool
  | .remoteAddr | .fallbackAddrs | .connectionPool | .retryInterval | .dialTimeout | .aggressivePool | .edgeIp | .proxy
  | .localAddr | .interface | .soMark | .loadBalance | .healthFailover => false
  | _ => true

def Key.ofClient : Key → Bool
  | .bindAddr | .channelSize | .ports | .tlsCert | .tlsKey | .acmeDomain | .acmeEmail | .heartbeat | .muxCon | .acceptUdp
  | .proxyProtocol | .maxConnections | .bandwidthMbps => false
  | _ => true

abbrev Section := Key → Value

namespace Section

variable (c : Section) (k : Key)

def str : Str :=
  match c k with
  | .str s => s
  | _ => []

def int : Int :=
  match c k with
  | .int n => n
  | _ => 0

def bool : Bool :=
  match c k with
  | .bool b => b
  | _ => false

def strs : List Str :=
  match c k with
  | .strs l => l
  | _ => []

def zero : Section := fun k => .zero k.kind

end Section

structure Config where
  server : Section
  client : Section

def decodeSection (d : Doc) (table : Str) (has : Key → Bool) : Option Section :=
  if ∀ k ∈ Key.all, has k = true → ∀ v ∈ d.lookup table k.name, v.kind = k.kind then
    some fun k => if has k then (d.lookup table k.name).getD (.zero k.kind) else .zero k.kind
  else none

def decode (file : Str) : Option Config :=
  (Toml.parse file).bind fun d =>
    (decodeSection d (lit "server") Key.ofServer).bind fun server =>
      (decodeSection d (lit "client") Key.ofClient).map fun client => ⟨server, client⟩

def Section.obfsMode (c : Section) : Str :=
  if c.str .obfs = lit "noise" ∨ c.str .obfs = lit "tls" then c.str .obfs
  else if c.str .obfs = lit "none" then []
  else if c.bool .stealth then lit "noise"
  else []

/-! ## internal/manage/edit.go -/

inductive LoadError
  | noSuchTunnel (name : Str)
  | decode
  | notServer (name : Str)
  | notClient (name : Str)
  deriving DecidableEq

def serverSpec (name : Str) (sc : Section) : TunnelSpec where
  role := lit "server"
  name := name
  transport := sc.str .transport
  bindAddr := sc.str .bindAddr
  token := sc.str .token
  channelSize := sc.int .channelSize
  keepAlive := sc.int .keepalivePeriod
  nodelay := sc.bool .nodelay
  heartbeat := sc.int .heartbeat
  logLevel := sc.str .logLevel
  logFormat := sc.str .logFormat
  acceptUDP := sc.bool .acceptUdp
  ports := sc.strs .ports
  mss := sc.int .mss
  soRcvBuf := sc.int .soRcvbuf
  soSndBuf := sc.int .soSndbuf
  tlsCert := sc.str .tlsCert
  tlsKey := sc.str .tlsKey
  acmeDomain := sc.str .acmeDomain
  acmeEmail := sc.str .acmeEmail
  simpleAuth := sc.bool .simpleAuth
  muxCon := sc.int .muxCon
  muxVersion := sc.int .muxVersion
  zeroCopy := sc.bool .zeroCopy
  muxFrameSize := sc.int .muxFramesize
  muxRecvBuffer := sc.int .muxRecievebuffer
  muxStreamBuffer := sc.int .muxStreambuffer
  sniffer := sc.bool .sniffer
  webPort := sc.int .webPort
  webBind := sc.str .webBind
  proxyProtocol := sc.bool .proxyProtocol
  maxConnections := sc.int .maxConnections
  bandwidthMbps := sc.int .bandwidthMbps
  preset := sc.str .preset
  kcpMTU := sc.int .kcpMtu
  kcpInterval := sc.int .kcpInterval
  kcpResend := sc.int .kcpResend
  kcpNoDelay := sc.int .kcpNodelay
  kcpNoCongestion := sc.int .kcpNocongestion
  kcpSndWnd := sc.int .kcpSndwnd
  kcpRcvWnd := sc.int .kcpRcvwnd
  kcpAckNoDelay := sc.bool .kcpAcknodelay
  kcpDataShards := sc.int .kcpDatashards
  kcpParityShards := sc.int .kcpParityshards
  spoofProfile := sc.str .spoofProfile
  spoofUplink := sc.str .spoofUplink
  spoofDownlink := sc.str .spoofDownlink
  spoofSrcIP := sc.str .spoofSrcIp
  spoofSrcPool := sc.strs .spoofSrcPool
  spoofPeerIP := sc.str .spoofPeerIp
  spoofDstIP := sc.str .spoofDstIp
  spoofInterface := sc.str .spoofInterface
  spoofPipe := sc.bool .spoofPipe
  spoofPipeAddr := sc.str .spoofPipeAddr
  spoofSockBuf := sc.int .spoofSockbuf
  spoofPeerSrcIP := sc.str .spoofPeerSrcIp
  spoofICMPReply := sc.bool .spoofIcmpReply
  spoofMTU := sc.int .spoofMtu
  spoofTTLJitter := sc.bool .spoofTtlJitter
  spoofRandomDSCP := sc.bool .spoofRandomDscp
  spoofShufflePort := sc.bool .spoofShufflePort
  spoofPortMin := sc.int .spoofPortMin
  spoofPortMax := sc.int .spoofPortMax
  spoofPadding := sc.bool .spoofPadding
  spoofPaddingMax := sc.int .spoofPaddingMax
  spoofFakeTLS := sc.bool .spoofFakeTls
  pckInterface := sc.str .pckInterface
  pckGatewayMAC := sc.str .pckGatewayMac
  pckFlags := sc.strs .pckFlags

def clientSpec (name : Str) (cc : Section) : TunnelSpec where
  role := lit "client"
  name := name
  transport := cc.str .transport
  remoteAddr := cc.str .remoteAddr
  fallbackAddrs := cc.strs .fallbackAddrs
  token := cc.str .token
  connectionPool := cc.int .connectionPool
  aggressivePool := cc.bool .aggressivePool
  keepAlive := cc.int .keepalivePeriod
  nodelay := cc.bool .nodelay
  logLevel := cc.str .logLevel
  logFormat := cc.str .logFormat
  mss := cc.int .mss
  soRcvBuf := cc.int .soRcvbuf
  soSndBuf := cc.int .soSndbuf
  edgeIP := cc.str .edgeIp
  simpleAuth := cc.bool .simpleAuth
  proxy := cc.str .proxy
  localAddr := cc.str .localAddr
  interface := cc.str .interface
  soMark := cc.int .soMark
  zeroCopy := cc.bool .zeroCopy
  muxCon := cc.int .muxSession
  muxVersion := cc.int .muxVersion
  muxFrameSize := cc.int .muxFramesize
  muxRecvBuffer := cc.int .muxRecievebuffer
  muxStreamBuffer := cc.int .muxStreambuffer
  sniffer := cc.bool .sniffer
  webPort := cc.int .webPort
  webBind := cc.str .webBind
  preset := cc.str .preset
  loadBalance := cc.bool .loadBalance
  healthFailover := cc.bool .healthFailover
  kcpMTU := cc.int .kcpMtu
  kcpInterval := cc.int .kcpInterval
  kcpResend := cc.int .kcpResend
  kcpNoDelay := cc.int .kcpNodelay
  kcpNoCongestion := cc.int .kcpNocongestion
  kcpSndWnd := cc.int .kcpSndwnd
  kcpRcvWnd := cc.int .kcpRcvwnd
  kcpAckNoDelay := cc.bool .kcpAcknodelay
  kcpDataShards := cc.int .kcpDatashards
  kcpParityShards := cc.int .kcpParityshards
  spoofProfile := cc.str .spoofProfile
  spoofUplink := cc.str .spoofUplink
  spoofDownlink := cc.str .spoofDownlink
  spoofSrcIP := cc.str .spoofSrcIp
  spoofSrcPool := cc.strs .spoofSrcPool
  spoofPeerIP := cc.str .spoofPeerIp
  spoofDstIP := cc.str .spoofDstIp
  spoofInterface := cc.str .spoofInterface
  spoofPipe := cc.bool .spoofPipe
  spoofPipeAddr := cc.str .spoofPipeAddr
  spoofSockBuf := cc.int .spoofSockbuf
  spoofPeerSrcIP := cc.str .spoofPeerSrcIp
  spoofICMPReply := cc.bool .spoofIcmpReply
  spoofMTU := cc.int .spoofMtu
  spoofTTLJitter := cc.bool .spoofTtlJitter
  spoofRandomDSCP := cc.bool .spoofRandomDscp
  spoofShufflePort := cc.bool .spoofShufflePort
  spoofPortMin := cc.int .spoofPortMin
  spoofPortMax := cc.int .spoofPortMax
  spoofPadding := cc.bool .spoofPadding
  spoofPaddingMax := cc.int .spoofPaddingMax
  spoofFakeTLS := cc.bool .spoofFakeTls
  pckInterface := cc.str .pckInterface
  pckGatewayMAC := cc.str .pckGatewayMac
  pckFlags := cc.strs .pckFlags

section

variable (name : Str) (file : Option Str)

def loadServerSpec : Except LoadError TunnelSpec :=
  match file.bind decode with
  | none => .error .decode
  | some cfg => if cfg.server.str .bindAddr = [] then .error (.notServer name) else .ok (serverSpec name cfg.server)

def loadClientSpec : Except LoadError TunnelSpec :=
  match file.bind decode with
  | none => .error .decode
  | some cfg => if cfg.client.str .remoteAddr = [] then .error (.notClient name) else .ok (clientSpec name cfg.client)

def loadSpec : Except LoadError TunnelSpec :=
  if file = none then .error (.noSuchTunnel name)
  else
    match loadServerSpec name file with
    | .ok s => .ok s
    | .error _ => loadClientSpec name file

end

end ArangeTun.Tunnels
