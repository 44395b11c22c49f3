import ArangeTun.Tunnels.Create
import ArangeTun.Tunnels.Load

/-!
# The form of a tunnel that is there

`TunnelForEdit` of internal/manage/edit_web.go: the request that the panel fills its form with.
-/

namespace ArangeTun.Tunnels

open Go

inductive FormError
  | decode
  | noSection (name : Str)
  deriving DecidableEq

section

variable (name : Str) (c : Section)

def advancedForm : AdvancedTuning where
  nodelay := some (c.bool .nodelay)
  keepAlive := c.int .keepalivePeriod
  logLevel := c.str .logLevel
  logFormat := c.str .logFormat
  muxVersion := c.int .muxVersion
  muxFrameSize := c.int .muxFramesize
  muxRecvBuffer := c.int .muxRecievebuffer
  muxStreamBuffer := c.int .muxStreambuffer
  kcpMTU := c.int .kcpMtu
  kcpInterval := c.int .kcpInterval
  kcpSndWnd := c.int .kcpSndwnd
  kcpRcvWnd := c.int .kcpRcvwnd
  kcpDataShards := c.int .kcpDatashards
  kcpParityShards := c.int .kcpParityshards
  mss := c.int .mss
  spoofProfile := c.str .spoofProfile
  spoofUplink := c.str .spoofUplink
  spoofDownlink := c.str .spoofDownlink
  spoofSrcIP := c.str .spoofSrcIp
  spoofSrcPool := c.strs .spoofSrcPool
  spoofPeerIP := c.str .spoofPeerIp
  spoofInterface := c.str .spoofInterface
  spoofPipe := some (c.bool .spoofPipe)
  spoofPipeAddr := c.str .spoofPipeAddr
  spoofSockBuf := c.int .spoofSockbuf
  spoofPeerSrcIP := c.str .spoofPeerSrcIp
  spoofICMPReply := some (c.bool .spoofIcmpReply)
  spoofMTU := c.int .spoofMtu
  spoofTTLJitter := some (c.bool .spoofTtlJitter)
  spoofRandomDSCP := some (c.bool .spoofRandomDscp)
  spoofShufflePort := some (c.bool .spoofShufflePort)
  spoofPortMin := c.int .spoofPortMin
  spoofPortMax := c.int .spoofPortMax
  spoofPadding := some (c.bool .spoofPadding)
  spoofPaddingMax := c.int .spoofPaddingMax
  spoofFakeTLS := some (c.bool .spoofFakeTls)
  pckInterface := c.str .pckInterface
  pckGatewayMAC := c.str .pckGatewayMac
  pckFlags := c.strs .pckFlags
  zeroCopy := some (c.bool .zeroCopy)

def serverAdvanced : AdvancedTuning :=
  { advancedForm c with
    heartbeat := c.int .heartbeat
    channelSize := c.int .channelSize
    acceptUDP := some (c.bool .acceptUdp)
    muxCon := c.int .muxCon
    maxConnections := c.int .maxConnections
    bandwidthMbps := c.int .bandwidthMbps }

def clientAdvanced : AdvancedTuning :=
  { advancedForm c with
    connectionPool := c.int .connectionPool
    aggressivePool := some (c.bool .aggressivePool)
    muxCon := c.int .muxSession }

def addrForm (addr : Str) : Str × Str := (splitHostPort addr).getD ([], [])

def Section.ObfsDomain : Prop := c.obfsMode = lit "tls" ∧ c.str .acmeDomain ≠ []

instance : Decidable c.ObfsDomain := inferInstanceAs (Decidable (_ ∧ _))

def tlsModeForm : Str :=
  if c.str .acmeDomain ≠ [] then lit "acme"
  else if c.str .tlsCert ≠ [] ∧ ¬ certDir ++ lit "/" <+: c.str .tlsCert then lit "existing"
  else lit "self"

def serverForm : TunnelRequest :=
  let tls := needsTLS (c.str .transport)
  { name := name
    role := lit "server"
    transport := c.str .transport
    preset := c.str .preset
    token := c.str .token
    port := (addrForm (c.str .bindAddr)).2
    ipv6 := (addrForm (c.str .bindAddr)).1 = lit "::"
    ports := c.strs .ports
    proxyProtocol := c.bool .proxyProtocol
    obfs := c.obfsMode
    tlsSni := if c.ObfsDomain then c.str .acmeDomain else c.str .tlsSni
    tlsCertMode := if c.ObfsDomain then lit "acme" else []
    simpleAuth := c.bool .simpleAuth
    tlsMode := if tls then tlsModeForm c else []
    acmeDomain := if tls ∧ tlsModeForm c = lit "acme" then c.str .acmeDomain else []
    acmeEmail := if c.ObfsDomain ∨ (tls ∧ tlsModeForm c = lit "acme") then c.str .acmeEmail else []
    tlsCert := if tls ∧ tlsModeForm c = lit "existing" then c.str .tlsCert else []
    tlsKey := if tls ∧ tlsModeForm c = lit "existing" then c.str .tlsKey else []
    advanced :=
      if c.str .preset = [] ∨ 0 < c.int .maxConnections ∨ 0 < c.int .bandwidthMbps ∨ 0 < c.int .mss ∨
          c.str .transport = lit "spoof" then
        some (serverAdvanced c)
      else none }

def clientForm : TunnelRequest where
  name := name
  role := lit "client"
  transport := c.str .transport
  preset := c.str .preset
  token := c.str .token
  serverHost := (addrForm (c.str .remoteAddr)).1
  serverPort := (addrForm (c.str .remoteAddr)).2
  edgeIP := c.str .edgeIp
  proxy := c.str .proxy
  interface := c.str .interface
  localAddr := c.str .localAddr
  fallbackAddrs := c.strs .fallbackAddrs
  loadBalance := c.bool .loadBalance
  healthFailover := c.bool .healthFailover
  obfs := c.obfsMode
  tlsSni := c.str .tlsSni
  simpleAuth := c.bool .simpleAuth
  advanced :=
    if c.str .preset = [] ∨ 0 < c.int .mss ∨ c.str .transport = lit "spoof" then some (clientAdvanced c) else none

end

def tunnelForEdit (name : Str) (file : Option Str) : Except FormError TunnelRequest :=
  match file.bind decode with
  | none => .error .decode
  | some cfg =>
    if cfg.server.str .bindAddr ≠ [] then .ok (serverForm name cfg.server)
    else if cfg.client.str .remoteAddr ≠ [] then .ok (clientForm name cfg.client)
    else .error (.noSection name)

end ArangeTun.Tunnels
