import ArangeTun.Go.Binary
import ArangeTun.Go.Dialogue

/-!
# The SOCKS5 proxy

internal/socks/socks5.go and `Negotiate` of internal/socks/dialer.go. Every read and write may fail.
-/

namespace ArangeTun.Socks

open Go Conn

def ver5 : UInt8 := 0x05

def authUP : UInt8 := 0x02

def authNone : UInt8 := 0x00

def cmdConn : UInt8 := 0x01

def cmdUDP : UInt8 := 0x03

def atypIPv4 : UInt8 := 0x01

def atypHost : UInt8 := 0x03

def atypIPv6 : UInt8 := 0x04

def repOK : UInt8 := 0x00

/-- What `handle` calls: the authentication function, `net.DialTimeout` and `handleUDPAssociate`. -/
inductive Call
  | auth (user pass : Str)
  | dial (target : Str)
  | associate
  deriving DecidableEq

/-- The server. A connection that is piped is tagged with the target of its other end. -/
abbrev Server := Proc Call Str

abbrev Client := Proc Empty Unit

/-! ## The server -/

def hasMethod (methods : Str) (m : UInt8) : Bool := methods.any (· == m)

def reply (code : UInt8) : Server Unit := do
  let _ ← write [ver5, code, 0x00, atypIPv4, 0, 0, 0, 0, 0, 0]

def readAuth (auth : Bool) : Server Bool := do
  let .ok h ← readFull 2 | return false
  if h.getD 0 0 ≠ 0x01 then
    return false
  let .ok user ← readFull (h.getD 1 0).toNat | return false
  let .ok pl ← readFull 1 | return false
  let .ok pass ← readFull (pl.getD 0 0).toNat | return false
  if auth then call (.auth user pass) else return false

def authenticate (auth : Bool) (methods : Str) : Server Bool := do
  if auth = false then
    if hasMethod methods authNone = false then
      let _ ← write [ver5, 0xFF]
      return false
    let _ ← write [ver5, authNone]
    return true
  else
    if hasMethod methods authUP = false then
      let _ ← write [ver5, 0xFF]
      return false
    let _ ← write [ver5, authUP]
    if ← readAuth auth then
      let _ ← write [0x01, 0x00]
      return true
    else
      let _ ← write [0x01, 0x01]
      return false

section

-- `net.IP.String`
variable (ipString : Str → Str)

def readAddr (atyp : UInt8) : Server (Except Error Str) := do
  if atyp = atypIPv4 then
    return (← readFull 4).map ipString
  else if atyp = atypIPv6 then
    return (← readFull 16).map ipString
  else if atyp = atypHost then
    match ← readFull 1 with
    | .error err => return .error err
    | .ok l => readFull (l.getD 0 0).toNat
  else
    return .error (.other (lit "unsupported address type"))

def request : Server Unit := do
  let .ok head ← readFull 4 | reply 0x07
  if head.getD 0 0 ≠ ver5 then
    reply 0x07
  else
    let .ok host ← readAddr ipString (head.getD 3 0) | reply 0x08
    let .ok portBuf ← readFull 2 | reply 0x01
    if head.getD 1 0 = cmdConn then
      let target := joinHostPort host (itoa (be16 portBuf 0).toNat)
      if ← call (.dial target) then
        reply repOK
        .stream target
      else
        reply 0x05
    else if head.getD 1 0 = cmdUDP then
      let _ ← call .associate
      return ()
    else
      reply 0x07

def handle (auth : Bool) : Server Unit := do
  let .ok br ← readFull 2 | return ()
  if br.getD 0 0 ≠ ver5 then
    return ()
  let .ok methods ← readFull (br.getD 1 0).toNat | return ()
  if ← authenticate auth methods then
    request ipString

end

/-! ## The client -/

def portBytes (port : Int) : Str := putUint16 (UInt16.ofInt port)

def want (user pass : Str) : UInt8 := if user = [] ∧ pass = [] then authNone else authUP

def credentials (user pass : Str) : Str :=
  [0x01, UInt8.ofNat user.length] ++ user ++ [UInt8.ofNat pass.length] ++ pass

def connectRequest (host : Str) (port : Int) : Str :=
  [ver5, cmdConn, 0x00, atypHost, UInt8.ofNat host.length] ++ host ++ portBytes port

def sendAuth (user pass : Str) : Client (Option Error) := do
  if let some err ← write (credentials user pass) then
    return err
  match ← readFull 2 with
  | .error err => return err
  | .ok ar =>
    if ar.getD 1 0 ≠ 0x00 then
      return some (.other (lit "socks5: authentication failed"))
    return none

/-- How many bytes of the reply follow its head: the bound address, whose form `atyp` gives, and the port. -/
def boundLength (atyp : UInt8) : Client (Except Error Nat) := do
  if atyp = atypIPv4 then
    return .ok (4 + 2)
  else if atyp = atypIPv6 then
    return .ok (16 + 2)
  else if atyp = atypHost then
    match ← readFull 1 with
    | .error err => return .error (.wrapped (lit "socks5: reading the bound address length: ") err)
    | .ok l => return .ok ((l.getD 0 0).toNat + 2)
  else
    return .error (.other (lit "socks5: unknown address type " ++ itoa atyp.toNat ++ lit " in reply"))

def discard (skip : Nat) : Client (Option Error) := do
  match ← readFull skip with
  | .error err => return some (.wrapped (lit "socks5: reading the bound address: ") err)
  | .ok _ => return none

def skipBound (atyp : UInt8) : Client (Option Error) := do
  match ← boundLength atyp with
  | .error err => return err
  | .ok skip => discard skip

def connect (host : Str) (port : Int) : Client (Option Error) := do
  if let some err ← write (connectRequest host port) then
    return err
  match ← readFull 4 with
  | .error err => return err
  | .ok head =>
    if head.getD 1 0 ≠ repOK then
      return some (.other (lit "socks5: connect failed (code " ++ itoa (head.getD 1 0).toNat ++ lit ")"))
    skipBound (head.getD 3 0)

def negotiate (user pass host : Str) (port : Int) : Client (Option Error) := do
  if let some err ← write [ver5, 0x01, want user pass] then
    return err
  match ← readFull 2 with
  | .error err => return err
  | .ok resp =>
    if resp.getD 0 0 ≠ ver5 ∨ resp.getD 1 0 ≠ want user pass then
      return some (.other (lit "socks5: proxy rejected the offered auth method"))
    if ¬ (user = [] ∧ pass = []) then
      if let some err ← sendAuth user pass then
        return err
    connect host port

def dial (user pass host : Str) (port : Int) : Client Error := do
  match ← negotiate user pass host port with
  | some err => return err
  | none => .stream ()

end ArangeTun.Socks
