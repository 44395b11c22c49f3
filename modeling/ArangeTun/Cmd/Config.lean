import ArangeTun.Go.Check
import ArangeTun.Go.Net
import ArangeTun.Ports.Model
import ArangeTun.Relay.Model
import ArangeTun.Spoof.Model

/-!
# The configuration

`Config` of config/config.go, `applyDefaults` with the checks of cmd/defaults.go, `ParseProxy`, `Outbound` and
`ParseSpoofProfile` of internal/utils/network, how `runEngine` of cmd/cmd.go chooses what to run, and how what it runs
can end the process.
-/

namespace ArangeTun.Cmd

open Go

/-! ## config/config.go -/

abbrev TransportType := Str

namespace TransportType

def tcp : TransportType := lit "tcp"
def tcpmux : TransportType := lit "tcpmux"
def ws : TransportType := lit "ws"
def wss : TransportType := lit "wss"
def wsmux : TransportType := lit "wsmux"
def wssmux : TransportType := lit "wssmux"
def udp : TransportType := lit "udp"
def kcp : TransportType := lit "kcp"
def quic : TransportType := lit "quic"
def stealth : TransportType := lit "stealth"
def xdi : TransportType := lit "xdi"
def spoof : TransportType := lit "spoof"
def pck : TransportType := lit "pck"

end TransportType

structure SpoofConfig where
  spoofProfile : Str := []
  spoofUplink : Str := []
  spoofDownlink : Str := []
  -- `none` is the nil slice, which `DeepEqual` tells from the empty one
  spoofSrcPool : Option (List Str) := none
  spoofPeerIP : Str := []
  spoofPipe : Bool := false
  spoofPipeAddr : Str := []
  deriving DecidableEq

structure ServerConfig extends SpoofConfig where
  bindAddr : Str := []
  transport : TransportType := []
  token : Str := []
  keepalive : Int := 0
  channelSize : Int := 0
  logLevel : Str := []
  muxSession : Int := 0
  muxVersion : Int := 0
  maxFrameSize : Int := 0
  maxReceiveBuffer : Int := 0
  maxStreamBuffer : Int := 0
  webPort : Int := 0
  snifferLog : Str := []
  heartbeat : Int := 0
  muxCon : Int := 0
  ports : Option (List Str) := none
  acceptUDP : Bool := false
  deriving DecidableEq

structure ClientConfig extends SpoofConfig where
  remoteAddr : Str := []
  transport : TransportType := []
  token : Str := []
  connectionPool : Int := 0
  retryInterval : Int := 0
  keepalive : Int := 0
  logLevel : Str := []
  muxSession : Int := 0
  muxVersion : Int := 0
  maxFrameSize : Int := 0
  maxReceiveBuffer : Int := 0
  maxStreamBuffer : Int := 0
  webPort : Int := 0
  snifferLog : Str := []
  dialTimeout : Int := 0
  proxy : Str := []
  localAddr : Str := []
  interface : Str := []
  soMark : Int := 0
  deriving DecidableEq

structure WireGuardConfig where
  role : Str := []
  deriving DecidableEq

structure PacketConfig where
  role : Str := []
  logLevel : Str := []
  deriving DecidableEq

structure SSHConfig where
  role : Str := []
  host : Str := []
  user : Str := []
  socksBind : Str := []
  socksPort : Int := 0
  logLevel : Str := []
  deriving DecidableEq

structure HedioumConfig where
  role : Str := []
  deriving DecidableEq

structure Config (ρ : Type) where
  server : ServerConfig := {}
  client : ClientConfig := {}
  wireGuard : WireGuardConfig := {}
  packet : PacketConfig := {}
  ssh : SSHConfig := {}
  hedioum : HedioumConfig := {}
  rest : ρ
  deriving DecidableEq

/-! ## Exits -/

inductive ProxyError
  | notURL (raw : Str)
  | unknownScheme (scheme : Str)
  | noHost (raw : Str)
  | noPort (raw : Str)
  deriving DecidableEq

inductive OutboundError
  | localAddr (addr : Str)
  | interface (name : Str)
  | negativeMark (mark : Int)
  deriving DecidableEq

inductive Fatal
  | load
  | proxy (err : ProxyError)
  | outbound (err : OutboundError)
  | outboundTransport (transport : TransportType)
  | notLinux (transport : TransportType)
  | notRoot (transport : TransportType)
  | spoofProfile (profile : Str)
  | spoofPeerIP
  | spoofSrcPool (ip : Str)
  | spoofPipeAddr (addr : Str)
  | wireguardRole (role : Str)
  | packetRole (role : Str)
  | hedioumRole (role : Str)
  | noRole
  | sshHost
  | sshUser
  | sshSocksPort
  | transportType (transport : TransportType)
  | listen (addr : Str)
  | port (message : Str)
  deriving DecidableEq

/-- What `runEngine` starts. The flag says whether the exposed ports carry UDP. -/
inductive Engine
  | wireguardClient
  | wireguardServer
  | packetClient
  | packetServer
  | sshClient
  | hedioumIran
  | hedioumForeign
  | frpServer (udp : Bool)
  | ratholeServer (udp : Bool)
  | server
  | frpClient
  | ratholeClient
  | client
  deriving DecidableEq

inductive Exit
  | fatal (f : Fatal)
  | panic
  -- of an engine that is not modelled further
  | engine (e : Engine)
  deriving DecidableEq

structure URL where
  scheme : Str
  host : Str
  user : Option (Str × Str)
  deriving DecidableEq

structure Env (ρ : Type) where
  goos : Str
  euid : Int
  parseLevel : Str → Bool
  parseURL : Str → Option URL
  resolveTCPAddr : Str → Bool
  interfaceByName : Str → Bool
  decode : Str → Option (Config ρ)
  -- whether a socket on the address can be opened, and the bytes that the runtime can get
  listens : Str → Bool
  memory : Int

variable {ρ : Type} (env : Env ρ) (cfg : Config ρ)

/-! ## Default values -/

def positiveOr (d n : Int) : Int := if n ≤ 0 then d else n

def nonemptyOr (d s : Str) : Str := if s = [] then d else s

def levelOrInfo (level : Str) : Str := if env.parseLevel level then level else lit "info"

def muxVersionOrAuto (version : Int) : Int := if version ≠ 1 ∧ version ≠ 2 then 0 else version

def ServerConfig.withDefaults (c : ServerConfig) : ServerConfig :=
  { c with
    token := nonemptyOr (lit "arange-tun") c.token
    channelSize := positiveOr 2048 c.channelSize
    logLevel := levelOrInfo env c.logLevel
    muxSession := positiveOr 1 c.muxSession
    keepalive := positiveOr 75 c.keepalive
    muxVersion := muxVersionOrAuto c.muxVersion
    maxFrameSize := positiveOr 32768 c.maxFrameSize
    maxReceiveBuffer := positiveOr 4194304 c.maxReceiveBuffer
    maxStreamBuffer := positiveOr 65536 c.maxStreamBuffer
    snifferLog := nonemptyOr (lit "arange-tun.json") c.snifferLog
    heartbeat := positiveOr 40 c.heartbeat
    muxCon := positiveOr 8 c.muxCon }

def ClientConfig.withDefaults (c : ClientConfig) : ClientConfig :=
  { c with
    token := nonemptyOr (lit "arange-tun") c.token
    logLevel := levelOrInfo env c.logLevel
    retryInterval := positiveOr 3 c.retryInterval
    connectionPool := positiveOr 8 c.connectionPool
    muxSession := positiveOr 1 c.muxSession
    keepalive := positiveOr 75 c.keepalive
    muxVersion := muxVersionOrAuto c.muxVersion
    maxFrameSize := positiveOr 32768 c.maxFrameSize
    maxReceiveBuffer := positiveOr 4194304 c.maxReceiveBuffer
    maxStreamBuffer := positiveOr 65536 c.maxStreamBuffer
    snifferLog := nonemptyOr (lit "arange-tun.json") c.snifferLog
    dialTimeout := positiveOr 10 c.dialTimeout }

def Config.withDefaults : Config ρ :=
  { cfg with
    server := cfg.server.withDefaults env
    client := cfg.client.withDefaults env
    packet :=
      if cfg.packet.role ≠ [] then { cfg.packet with logLevel := levelOrInfo env cfg.packet.logLevel } else cfg.packet
    ssh := if cfg.ssh.role ≠ [] then { cfg.ssh with logLevel := levelOrInfo env cfg.ssh.logLevel } else cfg.ssh }

/-! ## internal/utils/network/proxy.go and outbound.go -/

structure ProxyConfig where
  scheme : Str
  address : Str
  user : Str
  password : Str
  deriving DecidableEq

def toLower (s : Str) : Str := s.map fun c => if 65 ≤ c ∧ c ≤ 90 then c + 32 else c

def proxyScheme (scheme : Str) : Option Str :=
  if toLower scheme = lit "socks5" ∨ toLower scheme = lit "socks5h" then some (lit "socks5")
  else if toLower scheme = lit "http" then some (lit "http")
  else none

def parseProxy (raw : Str) : Except ProxyError (Option ProxyConfig) :=
  let raw := trimSpace raw
  if raw = [] then .ok none
  else
    match env.parseURL raw with
    | none => .error (.notURL raw)
    | some u =>
      match proxyScheme u.scheme with
      | none => .error (.unknownScheme u.scheme)
      | some scheme =>
        if u.host = [] then .error (.noHost raw)
        else if splitHostPort u.host = none then .error (.noPort raw)
        else .ok (some ⟨scheme, u.host, (u.user.map Prod.fst).getD [], (u.user.map Prod.snd).getD []⟩)

structure Outbound where
  proxy : Option ProxyConfig
  localAddr : Str
  interface : Str
  mark : Int
  deriving DecidableEq

def Outbound.isSet (o : Outbound) : Bool :=
  o.proxy.isSome || o.localAddr ≠ [] || o.interface ≠ [] || o.mark ≠ 0

/-- The address that `localTCPAddr` resolves: one without a port gets the port zero. -/
def withPort (addr : Str) : Str :=
  if (splitHostPort addr).isSome then addr
  else
    let host := if addr.head? = some (byte '[') ∧ addr.getLast? = some (byte ']') then (addr.drop 1).dropLast else addr
    joinHostPort host (lit "0")

def Outbound.validate (o : Outbound) : Except OutboundError Unit := do
  require (o.localAddr = [] ∨ env.resolveTCPAddr (withPort o.localAddr) = true) (.localAddr o.localAddr)
  require (o.interface = [] ∨ env.interfaceByName o.interface = true) (.interface o.interface)
  require (0 ≤ o.mark) (.negativeMark o.mark)

def outboundOf (proxy : Option ProxyConfig) : Outbound :=
  ⟨proxy, cfg.client.localAddr, cfg.client.interface, cfg.client.soMark⟩

def datagramTransports : List TransportType :=
  [.udp, .kcp, .xdi, .quic, .spoof, .pck]

def checkOutbound : Except Fatal Unit :=
  match parseProxy env cfg.client.proxy with
  | .error err => .error (.proxy err)
  | .ok proxy =>
    let out := outboundOf cfg proxy
    if out.isSet then
      match out.validate env with
      | .error err => .error (.outbound err)
      | .ok () => require (cfg.client.transport ∉ datagramTransports) (.outboundTransport cfg.client.transport)
    else .ok ()

/-! ## The other checks -/

def usesTransport (t : TransportType) : Bool := cfg.server.transport = t || cfg.client.transport = t

def checkRawSocket (t : TransportType) : Except Fatal Unit := do
  require (env.goos = lit "linux") (.notLinux t)
  require (env.euid = 0) (.notRoot t)

def checkXdi : Except Fatal Unit := if usesTransport cfg .xdi then checkRawSocket env .xdi else .ok ()

def checkPck : Except Fatal Unit := if usesTransport cfg .pck then checkRawSocket env .pck else .ok ()

def parseSpoofProfile (s : Str) : Option Spoof.SpoofProfile :=
  if s = [] ∨ s = lit "udp" then some .udp
  else if s = lit "tcp" then some .tcp
  else if s = lit "icmp" then some .icmp
  else if s = lit "icmpv6" then some .icmpv6
  else if s = lit "ipip" then some .ipip
  else if s = lit "gre" then some .gre
  else none

def isIPv4 (s : Str) : Bool := ((parseIP s).bind Relay.to4).isSome

def spoofSide : SpoofConfig :=
  if cfg.client.transport = .spoof then cfg.client.toSpoofConfig else cfg.server.toSpoofConfig

def SpoofConfig.pipeAddr (sc : SpoofConfig) : Str := nonemptyOr (lit "127.0.0.1:51820") sc.spoofPipeAddr

def checkSpoofSettings : Except Fatal Unit := do
  let sc := spoofSide cfg
  forM [sc.spoofProfile, sc.spoofUplink, sc.spoofDownlink] fun p =>
    require ((parseSpoofProfile p).isSome = true) (.spoofProfile p)
  require (cfg.server.transport = .spoof → isIPv4 cfg.server.spoofPeerIP = true) .spoofPeerIP
  forM (sc.spoofSrcPool.getD []) fun ip => require (isIPv4 ip = true) (.spoofSrcPool ip)
  require (sc.spoofPipe = true → (splitHostPort sc.pipeAddr).isSome = true) (.spoofPipeAddr sc.pipeAddr)

def checkSpoof : Except Fatal Unit :=
  if usesTransport cfg .spoof then do
    checkRawSocket env .spoof
    checkSpoofSettings cfg
  else .ok ()

def checks : Except Fatal Unit := do
  checkOutbound env cfg
  checkXdi env cfg
  checkSpoof env cfg
  checkPck env cfg

def applyDefaults : Except Fatal (Config ρ) := do
  checks env (cfg.withDefaults env)
  .ok (cfg.withDefaults env)

/-! ## cmd/cmd.go -/

def engineOf (role : Str) (engines : List (Str × Engine)) (err : Str → Fatal) : Except Fatal Engine :=
  match engines.lookup role with
  | some e => .ok e
  | none => .error (err role)

def serverEngine (t : TransportType) : Engine :=
  if t = lit "frp" ∨ t = lit "frpu" then .frpServer (t = lit "frpu")
  else if t = lit "rathole" ∨ t = lit "ratholeu" then .ratholeServer (t = lit "ratholeu")
  else .server

def clientEngine (t : TransportType) : Engine :=
  if t = lit "frp" ∨ t = lit "frpu" then .frpClient
  else if t = lit "rathole" ∨ t = lit "ratholeu" then .ratholeClient
  else .client

def wireguardEngines : List (Str × Engine) := [(lit "client", .wireguardClient), (lit "server", .wireguardServer)]

def packetEngines : List (Str × Engine) := [(lit "client", .packetClient), (lit "server", .packetServer)]

def hedioumEngines : List (Str × Engine) := [(lit "iran", .hedioumIran), (lit "foreign", .hedioumForeign)]

def runEngine : Except Fatal Engine :=
  if cfg.wireGuard.role ≠ [] then engineOf cfg.wireGuard.role wireguardEngines .wireguardRole
  else if cfg.packet.role ≠ [] then engineOf cfg.packet.role packetEngines .packetRole
  else if cfg.ssh.role ≠ [] then .ok .sshClient
  else if cfg.hedioum.role ≠ [] then engineOf cfg.hedioum.role hedioumEngines .hedioumRole
  else if cfg.server.bindAddr ≠ [] then .ok (serverEngine cfg.server.transport)
  else if cfg.client.remoteAddr ≠ [] then .ok (clientEngine cfg.client.transport)
  else .error .noRole

/-! ## internal/server, internal/client and internal/ssh/ssh.go -/

inductive Carrier
  | tcp
  | kcp
  | spoofPipe
  | quic
  | tcpmux
  | ws
  | wsmux
  | udp
  deriving DecidableEq

def startTransport (t : TransportType) (sc : SpoofConfig) : Except Fatal Carrier :=
  if t = .tcp ∨ t = .stealth then .ok .tcp
  else if t = .kcp ∨ t = .xdi ∨ t = .spoof ∨ t = .pck then
    if t = .spoof ∧ sc.spoofPipe = true then .ok .spoofPipe else .ok .kcp
  else if t = .quic then .ok .quic
  else if t = .tcpmux then .ok .tcpmux
  else if t = .ws ∨ t = .wss then .ok .ws
  else if t = .wsmux ∨ t = .wssmux then .ok .wsmux
  else if t = .udp then .ok .udp
  else .error (.transportType t)

def serverStart : Except Fatal Carrier := startTransport cfg.server.transport cfg.server.toSpoofConfig

def clientStart : Except Fatal Carrier := startTransport cfg.client.transport cfg.client.toSpoofConfig

def sshStart : Except Fatal Unit := do
  require (cfg.ssh.host ≠ []) .sshHost
  require (cfg.ssh.user ≠ []) .sshUser
  require (0 < cfg.ssh.socksPort) .sshSocksPort
  let addr := joinHostPort (nonemptyOr (lit "127.0.0.1") cfg.ssh.socksBind) (itoa cfg.ssh.socksPort)
  require (env.listens addr = true) (.listen addr)

/-- The bytes of an element of `tunnelChannel` and of one of `localChannel`. -/
def channelElements : Int := 16 + 40

def ServerConfig.parsed (c : ServerConfig) : Ports.Parsed := Ports.parsePortMappings (c.ports.getD [])

/-- `NewTCPServer`, `tunnelListener`, `channelHandler`, `parsePortMappings` and `startListeners` of
internal/server/transport/tcp.go, as far as they can end the process. -/
def tcpStart (c : ServerConfig) : Except Exit Unit := do
  require (channelElements * c.channelSize ≤ env.memory) .panic
  require (env.listens c.bindAddr = true) (.fatal (.listen c.bindAddr))
  -- `time.NewTicker` panics on a period that is not positive
  require (0 < (c.heartbeat * 10 ^ 9).bmod (2 ^ 64)) .panic
  match c.parsed.fatal with
  | some message => .error (.fatal (.port message))
  | none => .ok ()
  forM c.parsed.listeners fun l => require (env.listens l.localAddr = true) (.fatal (.listen l.localAddr))
  -- the UDP listener can send on a closed channel
  require (c.acceptUDP = false) .panic

/-- An exit that the engine can come to. The transports of the client make their channels and tickers with constants and
call no `Fatalf`; an engine that is not modelled further can end the process at any time. -/
def Engine.exit (e : Engine) : Option Exit :=
  match e with
  | .server =>
    match serverStart cfg with
    | .error f => some (.fatal f)
    | .ok .tcp =>
      match tcpStart env cfg.server with
      | .error x => some x
      | .ok () => none
    | .ok _ => some (.engine e)
  | .client =>
    match clientStart cfg with
    | .error f => some (.fatal f)
    | .ok _ => none
  | .sshClient =>
    match sshStart env cfg with
    | .error f => some (.fatal f)
    | .ok () => none
  | .frpClient | .ratholeClient => none
  | .wireguardClient | .wireguardServer | .packetClient | .packetServer | .hedioumIran | .hedioumForeign
  | .frpServer _ | .ratholeServer _ => some (.engine e)

/-- The loop of `itoa` of cmd/reload.go, with `i` bytes of its array left. -/
def itoaLoop : Nat → Int → Str → Option Str
  | i, n, acc =>
    if n ≤ 0 then some acc
    else
      match i with
      | 0 => none
      | i + 1 => itoaLoop i (n / 10) (UInt8.ofNat (48 + (n % 10).toNat) :: acc)

def itoa8 (n : Int) : Option Str := if n = 0 then some (lit "0") else itoaLoop 8 n []

def webAddr (webPort : Int) : Option (List Str) :=
  if 0 < webPort then (itoa8 webPort).map fun p => [joinHostPort [] p] else some []

def portsInUse : Option (List Str) :=
  if cfg.server.bindAddr ≠ [] then (webAddr cfg.server.webPort).map (cfg.server.bindAddr :: ·)
  else webAddr cfg.client.webPort

end ArangeTun.Cmd
