import ArangeTun.Go.Binary
import ArangeTun.Go.Reader
import ArangeTun.Server.Limits

/-!
# Connections and the relay between them

`limits.wrap` of internal/server/transport/limits.go, the PROXY header of internal/utils/handlers/proxy_protocol.go and
the buffered copy of tcp_handler.go.
-/

namespace ArangeTun.Relay

open Go

inductive Addr
  | tcp (ip : Str) (port : UInt16)
  | udp (ip : Str) (port : UInt16)
  deriving DecidableEq

inductive Conn
  | tcpConn (localAddr remoteAddr : Addr)
  | udpFlow (localAddr remoteAddr : Addr)
  | limitedConn (conn : Conn)
  | countedConn (conn : Conn)
  deriving DecidableEq

def Conn.localAddr : Conn → Addr
  | .tcpConn addr _ | .udpFlow addr _ => addr
  | .limitedConn conn | .countedConn conn => conn.localAddr

def Conn.remoteAddr : Conn → Addr
  | .tcpConn _ addr | .udpFlow _ addr => addr
  | .limitedConn conn | .countedConn conn => conn.remoteAddr

def isUDPFlow : Conn → Bool
  | .udpFlow _ _ => true
  | .tcpConn _ _ | .limitedConn _ | .countedConn _ => false

/-! ## Limits -/

structure Limits where
  maxConnections : Int
  bandwidthMbps : Int
  deriving DecidableEq

structure Limiter where
  maxConns : Int
  bucket : Option Int
  deriving DecidableEq

def newLimiter (l : Limits) : Option Limiter :=
  if l.maxConnections ≤ 0 ∧ l.bandwidthMbps ≤ 0 then none
  else some ⟨l.maxConnections.bmod (2 ^ 32), if 0 < l.bandwidthMbps then some l.bandwidthMbps else none⟩

def grants (limits : Option Limiter) (active : Int) : Bool :=
  match limits with
  | none => true
  | some l => (Server.acquire l.maxConns active).2

def wrap (limits : Option Limiter) (conn : Conn) : Conn :=
  match limits with
  | none => conn
  | some l => if l.bucket.isSome then .limitedConn conn else conn

def to4 (ip : Str) : Option Str :=
  if ip.length = 4 then some ip
  else if ip.length = 16 ∧ ip.take 12 = List.replicate 10 0 ++ [0xff, 0xff] then some (ip.drop 12)
  else none

def to16 (ip : Str) : Option Str :=
  if ip.length = 4 then some (List.replicate 10 0 ++ [0xff, 0xff] ++ ip)
  else if ip.length = 16 then some ip
  else none

/-- An address is written out and parsed again, which an address of another length does not survive. -/
def buildProxyProtocolV2Header (srcIP dstIP : Str) (srcPort dstPort : UInt16) : Except Error Str :=
  let magic : Str := [0x0d, 0x0a, 0x0d, 0x0a, 0x00, 0x0d, 0x0a, 0x51, 0x55, 0x49, 0x54, 0x0a, 0x21]
  let ports := putUint16 srcPort ++ putUint16 dstPort
  match to16 srcIP, to16 dstIP with
  | some src16, some dst16 =>
    match to4 srcIP, to4 dstIP with
    | some src, some dst => .ok (magic ++ [0x11] ++ putUint16 12 ++ src ++ dst ++ ports)
    | _, _ => .ok (magic ++ [0x21] ++ putUint16 36 ++ src16 ++ dst16 ++ ports)
  | _, _ => .error (.other (lit "invalid IP address"))

def proxyHeader (conn : Conn) : Except Error Str :=
  match conn.remoteAddr with
  | .udp _ _ => .error (.other (lit "source connection address is not a TCP address"))
  | .tcp srcIP srcPort =>
    match conn.localAddr with
    | .udp _ _ => .error (.other (lit "destination connection address is not a TCP address"))
    | .tcp dstIP dstPort =>
      match buildProxyProtocolV2Header srcIP dstIP srcPort dstPort with
      | .error err => .error (.wrapped (lit "failed to build Proxy Protocol v2 header: ") err)
      | .ok header => .ok header

def relayBufferSize : Nat := 64 * 1024

inductive TransferPc
  | reading
  | writing (rest : Str)
  -- both connections are closed
  | readFailed (err : Error)
  | writeFailed (err : Error)
  deriving DecidableEq

inductive TransferEvent
  | read (data : Str) (err : Option Error)
  | write (n : Nat) (err : Option Error)
  deriving DecidableEq

def TransferPc.next (rest : Str) : TransferPc := if rest = [] then .reading else .writing rest

def transferStep : TransferPc → TransferEvent → Option (Str × TransferPc)
  | .reading, .read data none => some ([], .next data)
  -- bytes that come with an error are not looked at
  | .reading, .read _ (some err) => some ([], .readFailed err)
  | .writing rest, .write n none => if n ≤ rest.length then some (rest.take n, .next (rest.drop n)) else none
  | .writing rest, .write n (some err) => if n ≤ rest.length then some (rest.take n, .writeFailed err) else none
  | _, _ => none

end ArangeTun.Relay
