import ArangeTun.Tunnels.Service

/-!
# Editing in the terminal

`EditTunnel` and the functions that change one setting, of internal/manage/edit.go, `EnsureTelegramPort` of
telegramport.go and `EnsureSocksPort` of relay.go.
-/

namespace ArangeTun.Tunnels

open Go Ports

inductive EditError
  | load (err : LoadError)
  | tunnelPort (port : Str)
  | addressOnServer
  | serverAddress
  | portsOnClient
  | noPorts
  | build (err : BuildError)
  | nothing
  | fallbacksOnServer
  | fallbackNoPort (addr : Str)
  | fallbackPort (addr : Str)
  | fallbackAddr (addr : Str)
  | balanceOnServer
  | nothingToBalance
  | balanceAlready (on : Bool)
  | proxyOnClient
  | proxyTransport (transport : Str)
  | proxyAlready (on : Bool)
  | limitsOnClient
  | negativeLimit
  | mssTransport (transport : Str)
  | negativeMSS
  | lowMSS (mss : Int)
  | apply (err : ApplyError)
  | save (err : SaveError)
  | notListening (port : Int)
  deriving DecidableEq

/-! ## Addresses -/

def addrHost (addr fallback : Str) : Str :=
  match splitHostPort addr with
  | some (h, _) => if h ≠ [] then h else fallback
  | none => fallback

def addrPort (addr : Str) : Str :=
  match splitHostPort addr with
  | some (_, p) => p
  | none => []

/-! ## The mappings of the bot -/

def socksPortForToken (token : Str) : Nat :=
  if token = [] then 1080
  else 20000 + (be32 ((Sha256.sum256 (lit "arange-tun-socks-v1:" ++ token)).take 4) 0).toNat % 20000

def telegramPortSuffix : Str := lit "=api.telegram.org:443"

def isTelegramPort (p : Str) : Bool := telegramPortSuffix <:+ trimSpace p

def loopbackSuffix (port : Nat) : Str := lit "=127.0.0.1:" ++ itoa port

def isBotRelayPort (p token : Str) : Bool :=
  let p := trimSpace p
  isTelegramPort p ∨ loopbackSuffix 1080 <:+ p ∨ (token ≠ [] ∧ loopbackSuffix (socksPortForToken token) <:+ p)

def leftSide (mapping : Str) : Str := trimSpace (cut mapping (byte '=')).1

def telegramMappingPort (mapping : Str) : Option Int :=
  let left := leftSide mapping
  let left := match lastIndex (byte ':') left with
    | some i => left.drop (i + 1)
    | none => left
  (atoi left).filter fun port => 1 ≤ port ∧ port ≤ 65535

def telegramMapping (port : Int) : Str := lit "127.0.0.1:" ++ itoa port ++ telegramPortSuffix

def boundMapping (mapping : Str) : Str :=
  if byte ':' ∈ leftSide mapping then []
  else
    match telegramMappingPort mapping with
    | none => []
    | some port => telegramMapping port

/-! ## The edits of a spec -/

section

variable (s : TunnelSpec)

def editAddress (host tunnelPort : Str) : Except EditError TunnelSpec :=
  if tunnelPort = [] ∧ host = [] then .ok s
  else do
    require (tunnelPort = [] ∨ validPort tunnelPort = true) (.tunnelPort tunnelPort)
    if s.role = lit "server" then do
      require (host = []) .addressOnServer
      return { s with bindAddr := joinHostPort (addrHost s.bindAddr (lit "0.0.0.0")) tunnelPort }
    else do
      let h := if host ≠ [] then trimBrackets (trimSpace host) else addrHost s.remoteAddr []
      let p := if tunnelPort ≠ [] then tunnelPort else addrPort s.remoteAddr
      require (h ≠ [] ∧ validPort p = true) .serverAddress
      return { s with remoteAddr := joinHostPort h p }

def visiblePorts (ports : List Str) (token : Str) : List Str :=
  (ports.map trimSpace).filter fun p => p ≠ [] ∧ isBotRelayPort p token = false

def editPorts (ports : List Str) : Except EditError TunnelSpec :=
  if ports = [] then .ok s
  else do
    require (s.role = lit "server") .portsOnClient
    require (visiblePorts ports s.token ≠ []) .noPorts
    (validatePortSpecs (visiblePorts ports s.token)).mapError .build
    return { s with ports := visiblePorts ports s.token ++ s.ports.filter fun p => isBotRelayPort p s.token }

def editTunnel (host tunnelPort : Str) (ports : List Str) : Except EditError TunnelSpec := do
  let s ← editAddress s host tunnelPort
  let s ← editPorts s ports
  require (tunnelPort ≠ [] ∨ host ≠ [] ∨ ports ≠ []) .nothing
  return s

def fallbackEntry (primaryPort a : Str) : Except EditError Str := do
  let (host, port) := (splitHostPort a).getD (a, [])
  require (port ≠ [] ∨ primaryPort ≠ []) (.fallbackNoPort a)
  let port := if port = [] then primaryPort else port
  require (validPort port = true) (.fallbackPort a)
  require (host ≠ []) (.fallbackAddr a)
  let host := if byte ':' ∈ host ∧ host.head? ≠ some (byte '[') then lit "[" ++ host ++ lit "]" else host
  return joinHostPort (trimBrackets host) port

def fallbackEntries (primaryPort : Str) : List Str → List Str → Except EditError (List Str)
  | _, [] => .ok []
  | seen, a :: as =>
    if trimSpace a = [] then fallbackEntries primaryPort seen as
    else do
      let full ← fallbackEntry primaryPort (trimSpace a)
      if full ∈ seen then fallbackEntries primaryPort seen as
      else do
        let clean ← fallbackEntries primaryPort (full :: seen) as
        return full :: clean

def setFallbackAddrs (addrs : List Str) : Except EditError TunnelSpec := do
  require (s.role = lit "client") .fallbacksOnServer
  let clean ← fallbackEntries (addrPort s.remoteAddr) [trimSpace s.remoteAddr] addrs
  return { s with fallbackAddrs := clean }

def setLoadBalance (on : Bool) : Except EditError TunnelSpec := do
  require (s.role = lit "client") .balanceOnServer
  require (on = false ∨ s.fallbackAddrs ≠ []) .nothingToBalance
  require (s.loadBalance ≠ on) (.balanceAlready on)
  return { s with loadBalance := on }

def setProxyProtocol (on : Bool) : Except EditError TunnelSpec := do
  require (s.role = lit "server") .proxyOnClient
  require (supportsProxyProtocol s.transport = true) (.proxyTransport s.transport)
  require (s.proxyProtocol ≠ on) (.proxyAlready on)
  return { s with proxyProtocol := on }

def setLimits (maxConns bandwidthMbps : Int) : Except EditError TunnelSpec := do
  require (s.role = lit "server") .limitsOnClient
  require (0 ≤ maxConns ∧ 0 ≤ bandwidthMbps) .negativeLimit
  return { s with maxConnections := maxConns, bandwidthMbps := bandwidthMbps }

def setMSSFloorCheck (mss : Int) : Except EditError Unit := do
  require (0 ≤ mss) .negativeMSS
  require (mss = 0 ∨ 536 ≤ mss) (.lowMSS mss)

def setMSS (mss : Int) : Except EditError TunnelSpec := do
  require (supportsMSS s.transport = true) (.mssTransport s.transport)
  setMSSFloorCheck mss
  return { s with mss := mss }

end

/-! ## The calls -/

def HighPort : Type := { n : Nat // 20000 ≤ n ∧ n < 60000 }

structure Probes where
  randomPort : HighPort
  accepting : Bool := true
  accepted : Bool := true

section

variable (isPrint : Char → Bool) (o : Outcomes) (w : World) (name : Str)

def change (edit : TunnelSpec → Except EditError TunnelSpec) : World × Except EditError Unit :=
  match loadSpec name (w.files (configPath name)) with
  | .error e => (w, .error (.load e))
  | .ok s =>
    match edit s with
    | .error e => (w, .error e)
    | .ok s =>
      match applySpec isPrint o w s with
      | (w, .error e) => (w, .error (.apply e))
      | (w, .ok ()) => (w, .ok ())

/-- The first mapping of the bot whose port can be read, and the ports with it on the loopback. -/
inductive TelegramMapping
  | absent
  | bare (port : Int) (ports : List Str)
  | bound (port : Int)
  deriving DecidableEq

def findTelegram : List Str → TelegramMapping
  | [] => .absent
  | p :: ps =>
    match if isTelegramPort p then telegramMappingPort p else none with
    | some port => if boundMapping p ≠ [] then .bare port (boundMapping p :: ps) else .bound port
    | none =>
      match findTelegram ps with
      | .bare port ps => .bare port (p :: ps)
      | found => found

/-- The save of the two functions that add a port, with a restart whose error is passed over. -/
def saveAndRestart (s : TunnelSpec) : World × Except EditError Unit :=
  match save o w s.name (s.render isPrint) with
  | (w, .error e) => (w, .error (.save e))
  | (w, .ok ()) => (w.ctl (serviceName name) o.restart, .ok ())

def awaitPort (p : Probes) (port : Int) : World × Except EditError Unit → World × Except EditError Int
  | (w, .error e) => (w, .error e)
  | (w, .ok ()) => (w, if p.accepted then .ok port else .error (.notListening port))

def ensureTelegramPort (p : Probes) : World × Except EditError Int :=
  match loadServerSpec name (w.files (configPath name)) with
  | .error e => (w, .error (.load e))
  | .ok s =>
    match findTelegram s.ports with
    | .bare port ports => awaitPort p port (saveAndRestart isPrint o w name { s with ports := ports })
    | .bound port =>
      if p.accepting then (w, .ok port)
      else awaitPort p port (w.ctl (serviceName name) o.restart, .ok ())
    | .absent =>
      let port : Int := p.randomPort.1
      awaitPort p port (saveAndRestart isPrint o w name { s with ports := s.ports ++ [telegramMapping port] })

/-- The port of the first mapping of the relay that has a number on its left side. -/
def findRelay (token : Str) : List Str → Option Int
  | [] => none
  | p :: ps =>
    match if isBotRelayPort p token then atoi (leftSide p) else none with
    | some n => some n
    | none => findRelay token ps

def socksMapping (exposed : Nat) (token : Str) : Str := itoa exposed ++ loopbackSuffix (socksPortForToken token)

def ensureSocksPort (p : Probes) : World × Except EditError Int :=
  match loadServerSpec name (w.files (configPath name)) with
  | .error e => (w, .error (.load e))
  | .ok s =>
    match findRelay s.token s.ports with
    | some n => (w, .ok n)
    | none =>
      let ports := s.ports ++ [socksMapping p.randomPort.1 s.token]
      match saveAndRestart isPrint o w name { s with ports := ports } with
      | (w, .error e) => (w, .error e)
      | (w, .ok ()) => (w, .ok p.randomPort.1)

end

end ArangeTun.Tunnels
