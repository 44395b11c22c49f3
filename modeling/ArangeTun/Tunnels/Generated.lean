import ArangeTun.Tunnels.Service
import ArangeTun.WireGuard.Config

/-!
# Packet and WireGuard tunnels

packet.go and wireguard.go of internal/manage: tunnels with a section of their own, that are not built from a
`TunnelSpec`; and `LoadTunnelConfig` and `Find` of tunnel.go.
-/

namespace ArangeTun.Tunnels

open Go Ports Toml WireGuard

/-! ## config/config.go -/

structure PacketConfig where
  role : Str := []
  key : Str := []
  deriving DecidableEq

structure Sections where
  wireGuard : WireGuardConfig := {}
  packet : PacketConfig := {}
  sshRole : Str := []
  hedioumRole : Str := []
  bindAddr : Str := []
  remoteAddr : Str := []
  deriving DecidableEq

inductive Engine
  | wireguard
  | packet
  | ssh
  | hedioum
  | server
  | client
  deriving DecidableEq

def Sections.tunnel (c : Sections) : Option (Engine × Str) :=
  if c.wireGuard.role ≠ [] then some (.wireguard, c.wireGuard.role)
  else if c.packet.role ≠ [] then some (.packet, c.packet.role)
  else if c.sshRole ≠ [] then some (.ssh, lit "client")
  else if c.hedioumRole ≠ [] then some (.hedioum, c.hedioumRole)
  else if c.bindAddr ≠ [] then some (.server, lit "server")
  else if c.remoteAddr ≠ [] then some (.client, lit "client")
  else none

/-- What comes from other modules: `toml.DecodeFile`, `wgtypes.ParseKey`, `GenerateKeypair` and `rand.Read`. -/
structure Outside where
  decode : Str → Option Sections
  validKey : Str → Bool
  serverKeys : Option Keypair
  clientKeys : Option Keypair
  random : Option Str

section

variable (isPrint : Char → Bool) (x : Outside) (o : Outcomes) (w : World)

/-! ## internal/manage/tunnel.go -/

def loadTunnelConfig (name : Str) : Option Sections := (w.files (configPath name)).bind x.decode

/-- `Find`: the files of the directory itself, so no name with a slash is found -/
def find (name : Str) : Option (Engine × Str) :=
  if byte '/' ∈ name then none else (loadTunnelConfig x w name).bind Sections.tunnel

/-! ## internal/manage/wireguard.go -/

inductive GeneratedError
  | name (name : Str)
  | exists (name : Str)
  | missing (name : Str)
  | listenPort (port : Int)
  | standardPort (port : Int)
  | random
  | key
  | noServerAddr
  | serverAddr (addr : Str)
  | serverHost (addr : Str)
  | serverPort (addr : Str)
  | nothingExposed
  | endpointHost
  | keypair
  | socksPort (port : Int)
  | parse (err : ParseError)
  | load (name : Str)
  | notServer (name : Str)
  | notClient (name : Str)
  | save (err : SaveError)
  | restart
  | start
  deriving DecidableEq

def saveGeneratedTunnel (name text : Str) : World × Except GeneratedError Unit :=
  match writeFiles o w name text with
  | (w, .error e) => (w, .error (.save e))
  | (w, .ok ()) =>
    let service := serviceName name
    if w.active service then (w.ctl service o.restart, require (o.restart.ok = true) .restart)
    else (w.ctl service o.start, require (o.start.ok = true) .start)

/-- The end that all these functions have: what the checks have made of the request is saved, and the result returned. -/
def saveAll {α : Type} (name : Str) (checked : Except GeneratedError (Str × α)) : World × Except GeneratedError α :=
  match checked with
  | .error e => (w, .error e)
  | .ok (text, a) =>
    match saveGeneratedTunnel o w name text with
    | (w, .error e) => (w, .error e)
    | (w, .ok ()) => (w, .ok a)

def validListenPort (port : Int) : Prop := 1 ≤ port ∧ port ≤ 65535

instance (port : Int) : Decidable (validListenPort port) := inferInstanceAs (Decidable (_ ∧ _))

def newName (name : Str) : Except GeneratedError Unit := do
  require (validName name = true) (.name name)
  require (find x w name = none) (.exists name)

def generatedHeader (name : Str) : List Line :=
  [.comment (lit " Generated by arange-tun " ++ [0xe2, 0x80, 0x94] ++ lit " do not edit while the service is running."),
   .comment (lit " name = " ++ quote isPrint name),
   .blank]

def strEntry (key : String) (s : Str) : Line := .entry (lit key) (.str s)

def intEntry (key : String) (n : Int) : Line := .entry (lit key) (.int n)

def optEntry (key : String) (s : Str) : List Line := if s = [] then [] else [strEntry key s]

def posEntry (key : String) (n : Int) : List Line := if 0 < n then [intEntry key n] else []

def wgRenderServer (name priv : Str) (listenPort : Int) (address egress : Str) (peers : List WGPeer) : Str :=
  text isPrint <| generatedHeader isPrint name ++
    [.header (lit "wireguard"), strEntry "role" (lit "server"), strEntry "private_key" priv,
      intEntry "listen_port" listenPort, strEntry "address" address] ++
    optEntry "egress" egress ++
    peers.flatMap fun p =>
      [.blank, .header (lit "[wireguard.peers]"), strEntry "public_key" p.publicKey,
        strEntry "allowed_ips" p.allowedIPs]

def wgRenderClient (name : Str) (pc : ParsedClient) (socksBind : Str) (socksPort : Int) : Str :=
  text isPrint <| generatedHeader isPrint name ++
    [.header (lit "wireguard"), strEntry "role" (lit "client"), strEntry "client_private_key" pc.privateKey,
      strEntry "client_address" pc.address] ++
    optEntry "dns" pc.dns ++ posEntry "mtu" pc.mtu ++
    [strEntry "peer_public_key" pc.peerPublicKey] ++ optEntry "preshared_key" pc.presharedKey ++
    [strEntry "endpoint" pc.endpoint] ++ optEntry "allowed_ips" pc.allowedIPs ++ posEntry "keepalive" pc.keepalive ++
    (if 0 < pc.jc then
      [intEntry "jc" pc.jc, intEntry "jmin" pc.jmin, intEntry "jmax" pc.jmax, intEntry "s1" pc.s1, intEntry "s2" pc.s2,
        intEntry "h1" pc.h1.toNat, intEntry "h2" pc.h2.toNat, intEntry "h3" pc.h3.toNat, intEntry "h4" pc.h4.toNat]
    else []) ++
    [strEntry "socks_bind" socksBind, intEntry "socks_port" socksPort]

def createWireGuardServer (name : Str) (listenPort : Int) (endpointHost dns egress : Str) :
    World × Except GeneratedError Str :=
  let name := trimSpace name
  let endpointHost := trimBrackets (trimSpace endpointHost)
  saveAll o w name do
    newName x w name
    require (validListenPort listenPort) (.listenPort listenPort)
    require (endpointHost ≠ []) .endpointHost
    match generateExitServer x.serverKeys x.clientKeys listenPort endpointHost dns with
    | none => .error .keypair
    | some gen =>
      return (wgRenderServer isPrint name gen.serverPrivateKey listenPort gen.address (trimSpace egress) gen.peers,
        gen.clientConfigText)

def bindOrLoopback (socksBind : Str) : Str := if trimSpace socksBind = [] then lit "127.0.0.1" else trimSpace socksBind

def createWireGuardClient (name wgConfigText socksBind : Str) (socksPort : Int) : World × Except GeneratedError Unit :=
  let name := trimSpace name
  saveAll o w name do
    newName x w name
    require (validListenPort socksPort) (.socksPort socksPort)
    let pc ← (parseClientConfig x.validKey wgConfigText).mapError .parse
    return (wgRenderClient isPrint name pc (bindOrLoopback socksBind) socksPort, ())

def loadWireGuard (name : Str) : Except GeneratedError WireGuardConfig :=
  match loadTunnelConfig x w name with
  | none => .error (.load name)
  | some cfg => .ok cfg.wireGuard

def updateWireGuardServer (name : Str) (listenPort : Int) (egress : Str) : World × Except GeneratedError Unit :=
  let name := trimSpace name
  saveAll o w name do
    let wg ← loadWireGuard x w name
    require (wg.role = lit "server") (.notServer name)
    require (validListenPort listenPort) (.listenPort listenPort)
    return (wgRenderServer isPrint name wg.privateKey listenPort wg.address (trimSpace egress) wg.peers, ())

def currentClient (wg : WireGuardConfig) : ParsedClient :=
  { toAmnezia := wg.toAmnezia, privateKey := wg.clientPrivateKey, address := wg.clientAddress, dns := wg.dns
    mtu := wg.mtu, peerPublicKey := wg.peerPublicKey, presharedKey := wg.presharedKey, endpoint := wg.endpoint
    allowedIPs := wg.allowedIPs, keepalive := wg.keepalive }

def clientConfig (wg : WireGuardConfig) (wgConfigText : Str) : Except GeneratedError ParsedClient :=
  if trimSpace wgConfigText ≠ [] then (parseClientConfig x.validKey wgConfigText).mapError .parse
  else .ok (currentClient wg)

def updateWireGuardClient (name wgConfigText socksBind : Str) (socksPort : Int) : World × Except GeneratedError Unit :=
  let name := trimSpace name
  saveAll o w name do
    let wg ← loadWireGuard x w name
    require (wg.role = lit "client") (.notClient name)
    require (validListenPort socksPort) (.socksPort socksPort)
    let pc ← clientConfig x wg wgConfigText
    return (wgRenderClient isPrint name pc (bindOrLoopback socksBind) socksPort, ())

/-! ## internal/manage/packet.go -/

def encodeToString (b : Str) : Str := b.flatMap fun c => [lowerHex (c.toNat / 16), lowerHex (c.toNat % 16)]

def randomKey : Except GeneratedError Str :=
  match x.random with
  | none => .error .random
  | some buf => .ok (encodeToString buf)

def cleanPorts (ports : List Str) : List Str := (ports.map trimSpace).filter fun p => p ≠ [] ∧ validPort p = true

def splitHostPortStrict (addr : Str) : Except GeneratedError Unit :=
  match splitHostPort addr with
  | none => .error (.serverAddr addr)
  | some (host, port) => do
      require (trimSpace host ≠ []) (.serverHost addr)
      require (validPort port = true) (.serverPort addr)

def packetRenderServer (name : Str) (listenPort : Int) (key block : Str) : Str :=
  text isPrint <| generatedHeader isPrint name ++
    [.header (lit "packet"), strEntry "role" (lit "server"), intEntry "listen_port" listenPort, strEntry "key" key] ++
    optEntry "block" block

def packetRenderClient (name serverAddr key block : Str) (ports : List Str) (socks : Str) : Str :=
  text isPrint <| generatedHeader isPrint name ++
    [.header (lit "packet"), strEntry "role" (lit "client"), strEntry "server_addr" serverAddr, strEntry "key" key] ++
    optEntry "block" block ++ (if ports = [] then [] else [.entry (lit "ports") (.strs ports)]) ++
    optEntry "socks" socks

def packetPort (listenPort : Int) : Except GeneratedError Unit := do
  require (validListenPort listenPort) (.listenPort listenPort)
  require (listenPort ≠ 80 ∧ listenPort ≠ 443) (.standardPort listenPort)

def packetClientText (name serverAddr key block : Str) (ports : List Str) (socks : Str) : Except GeneratedError Str := do
  let serverAddr := trimSpace serverAddr
  require (serverAddr ≠ []) .noServerAddr
  splitHostPortStrict serverAddr
  require (trimSpace key ≠ []) .key
  require (cleanPorts ports ≠ [] ∨ trimSpace socks ≠ []) .nothingExposed
  return packetRenderClient isPrint name serverAddr (trimSpace key) (trimSpace block) (cleanPorts ports) (trimSpace socks)

def keyOrRandom (key : Str) : Except GeneratedError Str := if trimSpace key = [] then randomKey x else .ok (trimSpace key)

def createPacketServer (name : Str) (listenPort : Int) (key block : Str) : World × Except GeneratedError Str :=
  let name := trimSpace name
  saveAll o w name do
    newName x w name
    packetPort listenPort
    let key ← keyOrRandom x key
    return (packetRenderServer isPrint name listenPort key (trimSpace block), key)

def createPacketClient (name serverAddr key block : Str) (ports : List Str) (socks : Str) :
    World × Except GeneratedError Unit :=
  let name := trimSpace name
  saveAll o w name do
    newName x w name
    let text ← packetClientText isPrint name serverAddr key block ports socks
    return (text, ())

def namedFile (name : Str) : Except GeneratedError Unit :=
  require ((w.files (configPath name)).isSome = true) (.missing name)

def currentKey (name : Str) : Str := ((loadTunnelConfig x w name).map fun cfg => cfg.packet.key).getD []

def updatePacketServer (name : Str) (listenPort : Int) (key block : Str) : World × Except GeneratedError Str :=
  let name := trimSpace name
  let key := if trimSpace key = [] then currentKey x w name else trimSpace key
  saveAll o w name do
    namedFile w name
    packetPort listenPort
    require (key ≠ []) .key
    return (packetRenderServer isPrint name listenPort key (trimSpace block), key)

def updatePacketClient (name serverAddr key block : Str) (ports : List Str) (socks : Str) :
    World × Except GeneratedError Unit :=
  let name := trimSpace name
  saveAll o w name do
    namedFile w name
    let text ← packetClientText isPrint name serverAddr key block ports socks
    return (text, ())

end

end ArangeTun.Tunnels
