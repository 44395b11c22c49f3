import ArangeTun.Cmd.Config
import ArangeTun.Ports.Model
import ArangeTun.Tunnels.Spec

/-!
# A tunnel from a request

`buildSpec` of internal/manage/create.go with the functions it calls, and `EnsureSelfSignedCert` and `validCertPair` of
tls.go.
-/

namespace ArangeTun.Tunnels

open Go Ports

/-! ## The request -/

structure AdvancedTuning where
  nodelay : Option Bool := none
  keepAlive : Int := 0
  heartbeat : Int := 0
  logLevel : Str := []
  logFormat : Str := []
  channelSize : Int := 0
  acceptUDP : Option Bool := none
  connectionPool : Int := 0
  aggressivePool : Option Bool := none
  muxCon : Int := 0
  muxVersion : Int := 0
  muxFrameSize : Int := 0
  muxRecvBuffer : Int := 0
  muxStreamBuffer : Int := 0
  kcpMTU : Int := 0
  kcpInterval : Int := 0
  kcpSndWnd : Int := 0
  kcpRcvWnd : Int := 0
  kcpDataShards : Int := 0
  kcpParityShards : Int := 0
  mss : Int := 0
  spoofProfile : Str := []
  spoofUplink : Str := []
  spoofDownlink : Str := []
  spoofSrcIP : Str := []
  spoofSrcPool : List Str := []
  spoofPeerIP : Str := []
  spoofInterface : Str := []
  spoofPipe : Option Bool := none
  spoofPipeAddr : Str := []
  spoofSockBuf : Int := 0
  spoofPeerSrcIP : Str := []
  spoofICMPReply : Option Bool := none
  spoofMTU : Int := 0
  spoofTTLJitter : Option Bool := none
  spoofRandomDSCP : Option Bool := none
  spoofShufflePort : Option Bool := none
  spoofPortMin : Int := 0
  spoofPortMax : Int := 0
  spoofPadding : Option Bool := none
  spoofPaddingMax : Int := 0
  spoofFakeTLS : Option Bool := none
  pckInterface : Str := []
  pckGatewayMAC : Str := []
  pckFlags : List Str := []
  maxConnections : Int := 0
  bandwidthMbps : Int := 0
  zeroCopy : Option Bool := none
  deriving DecidableEq

structure TunnelRequest where
  name : Str := []
  role : Str := []
  transport : Str := []
  preset : Str := []
  token : Str := []
  port : Str := []
  ipv6 : Bool := false
  ports : List Str := []
  proxyProtocol : Bool := false
  serverHost : Str := []
  serverPort : Str := []
  edgeIP : Str := []
  proxy : Str := []
  interface : Str := []
  localAddr : Str := []
  fallbackAddrs : List Str := []
  loadBalance : Bool := false
  healthFailover : Bool := false
  obfs : Str := []
  tlsSni : Str := []
  tlsCertMode : Str := []
  tlsMode : Str := []
  tlsHost : Str := []
  acmeDomain : Str := []
  acmeEmail : Str := []
  tlsCert : Str := []
  tlsKey : Str := []
  simpleAuth : Bool := false
  advanced : Option AdvancedTuning := none
  deriving DecidableEq

inductive BuildError
  | name (name : Str)
  | transport (transport : Str)
  | obfsDomain
  | role (role : Str)
  | preset (preset : Str)
  | presetTransport (preset transport : Str)
  | port (port : Str)
  | noPorts
  | portEntry (entry : Str)
  | serverAddress
  | serverPort (port : Str)
  | token
  | proxy (err : Cmd.ProxyError)
  | interface (interface : Str)
  | certificate (err : Str)
  | acmeDomain
  | acmeAddress (domain : Str)
  | certPaths
  | certFile (path : Str)
  | tlsMode (mode : Str)
  deriving DecidableEq

def tokenCharset : Str := lit "abcdefghijklmnopqrstuvwxyzABCDEFGHIJKLMNOPQRSTUVWXYZ0123456789"

def Token : Type := { t : Str // t.length = 64 ∧ ∀ b ∈ t, b ∈ tokenCharset }

structure Machine where
  net : Cmd.Env Unit
  fileExists : Str → Bool
  makeCert : Str → Str → Option Str
  randomToken : Token

def Machine.blank : Machine where
  net :=
    { goos := lit "linux", euid := 0, parseLevel := fun _ => true, parseURL := fun _ => none
      resolveTCPAddr := fun _ => true, interfaceByName := fun _ => false, decode := fun _ => none
      listens := fun _ => false, memory := 0 }
  fileExists := fun _ => false
  makeCert := fun _ _ => none
  randomToken := ⟨List.replicate 64 (byte 'a'), by decide +kernel⟩

/-! ## internal/manage/tls.go -/

def certDir : Str := lit "/etc/arange-tun/certs"

def certPath (name : Str) : Str := certDir ++ lit "/" ++ name ++ lit ".crt"

def keyPath (name : Str) : Str := certDir ++ lit "/" ++ name ++ lit ".key"

section

variable (m : Machine)

def ensureSelfSignedCert (name host : Str) : Except BuildError (Str × Str) :=
  if m.fileExists (certPath name) ∧ m.fileExists (keyPath name) then .ok (certPath name, keyPath name)
  else
    match m.makeCert name host with
    | some err => .error (.certificate err)
    | none => .ok (certPath name, keyPath name)

def validCertPair (cert key : Str) : Except BuildError Unit :=
  forM [cert, key] fun f => do
    require (f ≠ []) .certPaths
    require (m.fileExists f = true) (.certFile f)

/-! ## internal/manage/create.go -/

def trimBrackets (s : Str) : Str :=
  let bracket := fun b : UInt8 => decide (b = byte '[' ∨ b = byte ']')
  (s.dropWhile bracket).rdropWhile bracket

def normalizePorts (ports : List Str) : List Str := (ports.map trimSpace).filter (· ≠ [])

def validatePortSpecs (ports : List Str) : Except BuildError Unit :=
  forM ports fun p => require (validPortSpec p = true) (.portEntry (trimSpace p))

def configureServerTLS (s : TunnelSpec) (req : TunnelRequest) : Except BuildError TunnelSpec :=
  let mode := if trimSpace req.tlsMode = [] then lit "self" else trimSpace req.tlsMode
  if mode = lit "self" then do
    let pair ← ensureSelfSignedCert m s.name (trimSpace req.tlsHost)
    return { s with tlsCert := pair.1, tlsKey := pair.2 }
  else if mode = lit "acme" then do
    let domain := trimSpace req.acmeDomain
    require (domain ≠ []) .acmeDomain
    require (parseIP domain = none) (.acmeAddress domain)
    let pair ← ensureSelfSignedCert m s.name domain
    return { s with
      acmeDomain := domain, acmeEmail := trimSpace req.acmeEmail, tlsCert := pair.1, tlsKey := pair.2 }
  else if mode = lit "existing" then do
    validCertPair m (trimSpace req.tlsCert) (trimSpace req.tlsKey)
    return { s with tlsCert := trimSpace req.tlsCert, tlsKey := trimSpace req.tlsKey }
  else .error (.tlsMode mode)

def serverFields (s : TunnelSpec) (req : TunnelRequest) : TunnelSpec :=
  { s with
    bindAddr := joinHostPort (if req.ipv6 then lit "::" else lit "0.0.0.0") req.port
    ports := normalizePorts req.ports
    token := if trimSpace req.token ≠ [] then trimSpace req.token else m.randomToken.1
    proxyProtocol := if supportsProxyProtocol s.transport then req.proxyProtocol else s.proxyProtocol }

def buildServer (s : TunnelSpec) (req : TunnelRequest) : Except BuildError TunnelSpec := do
  require (validPort req.port = true) (.port req.port)
  require (normalizePorts req.ports ≠ []) .noPorts
  validatePortSpecs (normalizePorts req.ports)
  if needsTLS s.transport then do
    let s ← configureServerTLS m (serverFields m s req) req
    return { s with simpleAuth := req.simpleAuth }
  else return serverFields m s req

def checkProxy (raw : Str) : Except BuildError Unit :=
  if raw = [] then .ok ()
  else
    match Cmd.parseProxy m.net raw with
    | .error err => .error (.proxy err)
    | .ok _ => .ok ()

def fallbackAddr (serverPort part : Str) : Str :=
  if (splitHostPort part).isSome then part else joinHostPort (trimBrackets part) serverPort

def fallbacksOf (req : TunnelRequest) : List Str :=
  ((req.fallbackAddrs.map trimSpace).filter (· ≠ [])).map (fallbackAddr req.serverPort)

def clientFields (s : TunnelSpec) (req : TunnelRequest) : TunnelSpec :=
  let fallbackAddrs := s.fallbackAddrs ++ fallbacksOf req
  { s with
    remoteAddr := joinHostPort (trimBrackets (trimSpace req.serverHost)) req.serverPort
    token := trimSpace req.token
    edgeIP := if isWS s.transport then trimSpace req.edgeIP else s.edgeIP
    simpleAuth := if needsTLS s.transport then req.simpleAuth else s.simpleAuth
    proxy := if isDatagram s.transport ∨ trimSpace req.proxy = [] then s.proxy else trimSpace req.proxy
    interface := if isDatagram s.transport ∨ trimSpace req.interface = [] then s.interface else trimSpace req.interface
    localAddr := if isDatagram s.transport then s.localAddr else trimSpace req.localAddr
    fallbackAddrs := fallbackAddrs
    loadBalance := if fallbackAddrs ≠ [] then req.loadBalance else s.loadBalance
    healthFailover := if fallbackAddrs ≠ [] then req.healthFailover && !req.loadBalance else s.healthFailover }

def buildClient (s : TunnelSpec) (req : TunnelRequest) : Except BuildError TunnelSpec := do
  require (trimBrackets (trimSpace req.serverHost) ≠ []) .serverAddress
  require (validPort req.serverPort = true) (.serverPort req.serverPort)
  require (trimSpace req.token ≠ []) .token
  if !isDatagram s.transport then do
    checkProxy m (trimSpace req.proxy)
    require (trimSpace req.interface = [] ∨ m.net.interfaceByName (trimSpace req.interface) = true)
      (.interface (trimSpace req.interface))
  return clientFields s req

def override (n old : Int) : Int := if 0 < n then n else old

def applyAdvanced (s : TunnelSpec) (a : AdvancedTuning) : TunnelSpec :=
  let server := s.role = lit "server"
  let spoof := s.transport = lit "spoof"
  let pck := s.transport = lit "pck"
  { s with
    nodelay := a.nodelay.getD s.nodelay
    keepAlive := override a.keepAlive s.keepAlive
    heartbeat := override a.heartbeat s.heartbeat
    logLevel := if trimSpace a.logLevel ≠ [] then trimSpace a.logLevel else s.logLevel
    logFormat :=
      if trimSpace a.logFormat = lit "json" then lit "json"
      else if trimSpace a.logFormat = lit "text" then []
      else s.logFormat
    channelSize := if server then override a.channelSize s.channelSize else s.channelSize
    acceptUDP := if server ∧ s.transport = lit "tcp" then a.acceptUDP.getD s.acceptUDP else s.acceptUDP
    connectionPool := if server then s.connectionPool else override a.connectionPool s.connectionPool
    aggressivePool := if server then s.aggressivePool else a.aggressivePool.getD s.aggressivePool
    muxCon := if isMux s.transport then override a.muxCon s.muxCon else s.muxCon
    muxVersion := if isMux s.transport then override a.muxVersion s.muxVersion else s.muxVersion
    muxFrameSize := if isMux s.transport then override a.muxFrameSize s.muxFrameSize else s.muxFrameSize
    muxRecvBuffer := if isMux s.transport then override a.muxRecvBuffer s.muxRecvBuffer else s.muxRecvBuffer
    muxStreamBuffer := if isMux s.transport then override a.muxStreamBuffer s.muxStreamBuffer else s.muxStreamBuffer
    kcpMTU := if isKCP s.transport then override a.kcpMTU s.kcpMTU else s.kcpMTU
    kcpInterval := if isKCP s.transport then override a.kcpInterval s.kcpInterval else s.kcpInterval
    kcpSndWnd := if isKCP s.transport then override a.kcpSndWnd s.kcpSndWnd else s.kcpSndWnd
    kcpRcvWnd := if isKCP s.transport then override a.kcpRcvWnd s.kcpRcvWnd else s.kcpRcvWnd
    kcpDataShards := if isKCP s.transport then override a.kcpDataShards s.kcpDataShards else s.kcpDataShards
    kcpParityShards := if isKCP s.transport then override a.kcpParityShards s.kcpParityShards else s.kcpParityShards
    mss := if supportsMSS s.transport then override a.mss s.mss else s.mss
    spoofProfile :=
      if spoof then if a.spoofProfile = [] then lit "udp" else a.spoofProfile else s.spoofProfile
    spoofUplink := if spoof then a.spoofUplink else s.spoofUplink
    spoofDownlink := if spoof then a.spoofDownlink else s.spoofDownlink
    spoofSrcIP :=
      -- the first address of a pool stands in for a source that is not given
      if spoof then if a.spoofSrcPool ≠ [] ∧ a.spoofSrcIP = [] then a.spoofSrcPool.headD [] else a.spoofSrcIP
      else s.spoofSrcIP
    spoofSrcPool := if spoof then a.spoofSrcPool else s.spoofSrcPool
    spoofPeerIP := if spoof then a.spoofPeerIP else s.spoofPeerIP
    spoofInterface := if spoof then a.spoofInterface else s.spoofInterface
    spoofPipe := if spoof then a.spoofPipe.getD s.spoofPipe else s.spoofPipe
    spoofPipeAddr := if spoof then a.spoofPipeAddr else s.spoofPipeAddr
    spoofSockBuf := if spoof then a.spoofSockBuf else s.spoofSockBuf
    spoofPeerSrcIP := if spoof then a.spoofPeerSrcIP else s.spoofPeerSrcIP
    spoofICMPReply := if spoof then a.spoofICMPReply.getD s.spoofICMPReply else s.spoofICMPReply
    spoofMTU := if spoof then a.spoofMTU else s.spoofMTU
    spoofTTLJitter := if spoof then a.spoofTTLJitter.getD s.spoofTTLJitter else s.spoofTTLJitter
    spoofRandomDSCP := if spoof then a.spoofRandomDSCP.getD s.spoofRandomDSCP else s.spoofRandomDSCP
    spoofShufflePort := if spoof then a.spoofShufflePort.getD s.spoofShufflePort else s.spoofShufflePort
    spoofPortMin := if spoof then a.spoofPortMin else s.spoofPortMin
    spoofPortMax := if spoof then a.spoofPortMax else s.spoofPortMax
    spoofPadding := if spoof then a.spoofPadding.getD s.spoofPadding else s.spoofPadding
    spoofPaddingMax := if spoof then a.spoofPaddingMax else s.spoofPaddingMax
    spoofFakeTLS := if spoof then a.spoofFakeTLS.getD s.spoofFakeTLS else s.spoofFakeTLS
    pckInterface := if pck then a.pckInterface else s.pckInterface
    pckGatewayMAC := if pck then a.pckGatewayMAC else s.pckGatewayMAC
    pckFlags := if pck then a.pckFlags else s.pckFlags
    maxConnections := override a.maxConnections s.maxConnections
    bandwidthMbps := override a.bandwidthMbps s.bandwidthMbps
    zeroCopy := if s.transport = lit "tcp" then a.zeroCopy.getD s.zeroCopy else s.zeroCopy
    preset := [] }

def obfsOf (req : TunnelRequest) : Str :=
  if trimSpace req.obfs = lit "noise" ∨ trimSpace req.obfs = lit "tls" then trimSpace req.obfs else []

/-- Whether the certificate of the obfuscation is one of Let's Encrypt. -/
def ObfsACME (req : TunnelRequest) : Prop :=
  obfsOf req = lit "tls" ∧ req.role = lit "server" ∧ Cmd.toLower (trimSpace req.tlsCertMode) = lit "acme"

instance (req : TunnelRequest) : Decidable (ObfsACME req) := by
  unfold ObfsACME
  infer_instance

def obfuscate (s : TunnelSpec) (req : TunnelRequest) : Except BuildError TunnelSpec :=
  if isReverseProxy s.transport then
    let s := { s with obfs := obfsOf req, tlsSni := trimSpace req.tlsSni }
    if ObfsACME req then do
      require (trimSpace req.tlsSni ≠ []) .obfsDomain
      return { s with acmeDomain := trimSpace req.tlsSni, acmeEmail := trimSpace req.acmeEmail }
    else .ok s
  else .ok s

def buildRole (s : TunnelSpec) (req : TunnelRequest) : Except BuildError TunnelSpec :=
  if req.role = lit "server" then buildServer m s req
  else if req.role = lit "client" then buildClient m s req
  else .error (.role req.role)

def buildSpec (req : TunnelRequest) : Except BuildError TunnelSpec := do
  let name := trimSpace req.name
  require (validName name = true) (.name name)
  let transport := trimSpace req.transport
  require (validTransport transport = true) (.transport transport)
  let s ← obfuscate { name := name, role := req.role, transport := transport } req
  let s ← buildRole m s req
  let preset := if trimSpace req.preset = [] then presetTurbo else trimSpace req.preset
  require (validPreset preset = true) (.preset preset)
  require (presetSuitsTransport preset s.transport = true) (.presetTransport preset s.transport)
  let s := applyPreset s preset
  return match req.advanced with
    | some a => applyAdvanced s a
    | none => s

end

end ArangeTun.Tunnels
