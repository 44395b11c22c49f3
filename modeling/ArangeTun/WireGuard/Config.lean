import ArangeTun.Go.Check
import ArangeTun.Go.Str

/-!
# WireGuard configurations

`ParseClientConfig` of internal/wireguard/wg.go, `GenerateExitServer` of server.go and `WireGuardConfig` of
config/config.go.
-/

namespace ArangeTun.WireGuard

open Go

/-! ## config/config.go -/

structure WGPeer where
  publicKey : Str
  allowedIPs : Str
  deriving DecidableEq

structure Amnezia where
  jc : Int := 0
  jmin : Int := 0
  jmax : Int := 0
  s1 : Int := 0
  s2 : Int := 0
  h1 : UInt32 := 0
  h2 : UInt32 := 0
  h3 : UInt32 := 0
  h4 : UInt32 := 0
  deriving DecidableEq

structure WireGuardConfig extends Amnezia where
  role : Str := []
  privateKey : Str := []
  listenPort : Int := 0
  address : Str := []
  egress : Str := []
  peers : List WGPeer := []
  clientPrivateKey : Str := []
  clientAddress : Str := []
  dns : Str := []
  mtu : Int := 0
  peerPublicKey : Str := []
  presharedKey : Str := []
  endpoint : Str := []
  allowedIPs : Str := []
  keepalive : Int := 0
  socksBind : Str := []
  socksPort : Int := 0
  deriving DecidableEq

/-! ## internal/wireguard/wg.go -/

structure ParsedClient extends Amnezia where
  privateKey : Str := []
  address : Str := []
  dns : Str := []
  mtu : Int := 0
  peerPublicKey : Str := []
  presharedKey : Str := []
  endpoint : Str := []
  allowedIPs : Str := []
  keepalive : Int := 0
  deriving DecidableEq

inductive ParseError
  | noPrivateKey
  | noAddress
  | noPublicKey
  | noEndpoint
  | privateKey
  | publicKey
  deriving DecidableEq

def parseUint32 (s : Str) : UInt32 :=
  match if trimSpace s = [] then none else digits 0 (trimSpace s) with
  | none => 0
  | some n => if n < 2 ^ 32 then UInt32.ofNat n else 0

/-- `strings.ToLower`, for a comparison with lower-case ASCII: beyond ASCII, only the capital I with a dot and the kelvin
sign turn into ASCII letters. -/
def toLower : Str → Str
  | 0xc4 :: 0xb0 :: s => byte 'i' :: toLower s
  | 0xe2 :: 0x84 :: 0xaa :: s => byte 'k' :: toLower s
  | b :: s => (if 65 ≤ b ∧ b ≤ 90 then b + 32 else b) :: toLower s
  | [] => []

def sectionName (line : Str) : Str :=
  let bracket := fun b : UInt8 => decide (b = byte '[' ∨ b = byte ']')
  toLower ((line.dropWhile bracket).reverse.dropWhile bracket).reverse

namespace ParsedClient

variable (pc : ParsedClient)

def setInterface (key val : Str) : ParsedClient :=
  if key = lit "privatekey" then { pc with privateKey := val }
  else if key = lit "address" then { pc with address := val }
  else if key = lit "dns" then { pc with dns := val }
  else if key = lit "mtu" then { pc with mtu := atoiValue val }
  else if key = lit "jc" then { pc with jc := atoiValue val }
  else if key = lit "jmin" then { pc with jmin := atoiValue val }
  else if key = lit "jmax" then { pc with jmax := atoiValue val }
  else if key = lit "s1" then { pc with s1 := atoiValue val }
  else if key = lit "s2" then { pc with s2 := atoiValue val }
  else if key = lit "h1" then { pc with h1 := parseUint32 val }
  else if key = lit "h2" then { pc with h2 := parseUint32 val }
  else if key = lit "h3" then { pc with h3 := parseUint32 val }
  else if key = lit "h4" then { pc with h4 := parseUint32 val }
  else pc

def setPeer (key val : Str) : ParsedClient :=
  if key = lit "publickey" then { pc with peerPublicKey := val }
  else if key = lit "presharedkey" then { pc with presharedKey := val }
  else if key = lit "endpoint" then { pc with endpoint := val }
  else if key = lit "allowedips" then { pc with allowedIPs := val }
  else if key = lit "persistentkeepalive" then { pc with keepalive := atoiValue val }
  else pc

end ParsedClient

def parseLine (st : Str × ParsedClient) (line : Str) : Str × ParsedClient :=
  let line := trimSpace line
  if line = [] ∨ line.head? = some (byte '#') then st
  else if line.head? = some (byte '[') ∧ line.getLast? = some (byte ']') then (sectionName line, st.2)
  else
    match cut line (byte '=') with
    | (_, _, false) => st
    | (key, val, true) =>
      let key := toLower (trimSpace key)
      let val := trimSpace val
      if st.1 = lit "interface" then (st.1, st.2.setInterface key val)
      else if st.1 = lit "peer" then (st.1, st.2.setPeer key val)
      else st

def parseClientConfig (validKey : Str → Bool) (text : Str) : Except ParseError ParsedClient := do
  let pc := ((split text (byte '\n')).foldl parseLine ([], {})).2
  require (pc.privateKey ≠ []) .noPrivateKey
  require (pc.address ≠ []) .noAddress
  require (pc.peerPublicKey ≠ []) .noPublicKey
  require (pc.endpoint ≠ []) .noEndpoint
  require (validKey pc.privateKey = true) .privateKey
  require (validKey pc.peerPublicKey = true) .publicKey
  return pc

/-! ## internal/wireguard/server.go -/

abbrev Keypair := Str × Str

structure GeneratedExitServer where
  serverPrivateKey : Str
  serverPublicKey : Str
  address : Str
  peers : List WGPeer
  clientConfigText : Str
  deriving DecidableEq

def generateExitServer (server client : Option Keypair) (listenPort : Int) (endpointHost dns : Str) :
    Option GeneratedExitServer := do
  let (srvPriv, srvPub) ← server
  let (cliPriv, cliPub) ← client
  let dns := if trimSpace dns = [] then lit "1.1.1.1" else dns
  let serverAddr := lit "10.66.66.1/24"
  let clientAddr := lit "10.66.66.2/32"
  return {
    serverPrivateKey := srvPriv
    serverPublicKey := srvPub
    address := serverAddr
    peers := [⟨cliPub, clientAddr⟩]
    clientConfigText :=
      lit "[Interface]\nPrivateKey = " ++ cliPriv ++ lit "\nAddress = " ++ clientAddr ++ lit "\nDNS = " ++ dns ++
        lit "\n\n[Peer]\nPublicKey = " ++ srvPub ++ lit "\nEndpoint = " ++ endpointHost ++ lit ":" ++ itoa listenPort ++
        lit "\nAllowedIPs = 0.0.0.0/0, ::/0\nPersistentKeepalive = 25\n" }

end ArangeTun.WireGuard
