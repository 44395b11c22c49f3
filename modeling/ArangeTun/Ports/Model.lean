import ArangeTun.Go.Str

/-!
# Port entries

The mini-language of forwarded ports: `443`, `443-450`, `443=addr`, `443-450=addr` and
`ip:port=addr`, where `addr` is a port, a `host:port`, or several of these with `|` between them. Four
places of the program read it on their own:

* `validPortSpec` (internal/manage/validate.go) decides whether the panel stores an entry;
* `parsePortMappings` (internal/server/transport/tcp.go) expands the entries for the engine;
* `mappings` (internal/frp/frp.go and internal/rathole/rathole.go) expands them for these transports;
* `ResolveRemoteAddr` (internal/utils/network/resolver.go) reads the target on the client.
-/

namespace ArangeTun.Ports

open Go

def portsUpTo (lo hi : Int) : List Int := (List.range (hi + 1 - lo).toNat).map fun i : Nat => lo + (i : Int)

/-! ## internal/manage/validate.go -/

def validPort (s : Str) : Bool :=
  match atoi s with
  | some n => decide (1 ≤ n ∧ n ≤ 65535)
  | none => false

def validBackendList (dest : Str) : Bool :=
  let parts := split dest (byte '|')
  parts.all (fun p => decide (trimSpace p ≠ [])) && decide (0 < parts.length)

def validPortSpec (spec : Str) : Bool :=
  let spec := trimSpace spec
  let parts := splitN2 spec (byte '=')
  let loc := trimSpace (parts.headD [])
  if loc = [] then false
  else if parts.length = 2 ∧ validBackendList (parts.getD 1 []) = false then false
  else
    match splitHostPort loc with
    | some (h, p) =>
      if h ≠ [] then decide (parts.length = 2) && validPort p else portOrRange loc
    | none => portOrRange loc
where
  -- the two forms that are left once the local side is not an `ip:port`
  portOrRange (loc : Str) : Bool :=
    if byte '-' ∈ loc then
      match split loc (byte '-') with
      | [a, b] =>
        let lo := trimSpace a
        let hi := trimSpace b
        if validPort lo = false ∨ validPort hi = false then false
        else decide ((atoi lo).getD 0 ≤ (atoi hi).getD 0)
      | _ => false
    else validPort loc

/-! ## internal/server/transport/tcp.go -/

structure Listener where
  localAddr : Str
  remoteAddr : Str
  deriving DecidableEq

/-- What `parsePortMappings` has done: the listeners it started, and the message of the `Fatalf` that
ended the process, if one did. -/
structure Parsed where
  listeners : List Listener
  fatal : Option Str
  deriving DecidableEq

def rangeBounds (localPortOrRange : Str) : Except Str (Int × Int) :=
  match split localPortOrRange (byte '-') with
  | [a, b] =>
    match atoi (trimSpace a) with
    | none => .error (lit "invalid start port in range: " ++ a)
    | some startPort =>
      if startPort < 1 ∨ startPort > 65535 then .error (lit "invalid start port in range: " ++ a)
      else
        match atoi (trimSpace b) with
        | none => .error (lit "invalid end port in range: " ++ b)
        | some endPort =>
          if endPort < 1 ∨ endPort > 65535 ∨ endPort < startPort then
            .error (lit "invalid end port in range: " ++ b)
          else .ok (startPort, endPort)
  | _ => .error (lit "invalid port range format: " ++ localPortOrRange)

def parsePortMapping (portMapping : Str) : Except Str (List Listener) :=
  match split portMapping (byte '=') with
  | [p] =>
    let localPortOrRange := trimSpace p
    if byte '-' ∈ localPortOrRange then
      match rangeBounds localPortOrRange with
      | .error e => .error e
      | .ok (lo, hi) => .ok ((portsUpTo lo hi).map fun port => ⟨byte ':' :: itoa port, itoa port⟩)
    else
      match atoi localPortOrRange with
      | none => .error (lit "invalid port format: " ++ localPortOrRange)
      | some port =>
        if port < 1 ∨ port > 65535 then .error (lit "invalid port format: " ++ localPortOrRange)
        else .ok [⟨byte ':' :: itoa port, localPortOrRange⟩]
  | [p, r] =>
    let localPortOrRange := trimSpace p
    let remoteAddr := trimSpace r
    if byte '-' ∈ localPortOrRange then
      match rangeBounds localPortOrRange with
      | .error e => .error e
      | .ok (lo, hi) => .ok ((portsUpTo lo hi).map fun port => ⟨byte ':' :: itoa port, remoteAddr⟩)
    else
      match atoi localPortOrRange with
      | some port =>
        -- both comparisons are strict, unlike everywhere else
        if 1 < port ∧ port < 65535 then .ok [⟨byte ':' :: itoa port, remoteAddr⟩]
        else .ok [⟨localPortOrRange, remoteAddr⟩]
      | none => .ok [⟨localPortOrRange, remoteAddr⟩]
  | _ => .error (lit "invalid port mapping format: " ++ portMapping)

def parsePortMappings : List Str → Parsed
  | [] => ⟨[], none⟩
  | portMapping :: rest =>
    match parsePortMapping portMapping with
    | .error e => ⟨[], some e⟩
    | .ok ls => ⟨ls ++ (parsePortMappings rest).listeners, (parsePortMappings rest).fatal⟩

/-! ## internal/utils/network/resolver.go -/

/-- `ResolveRemoteAddr` on an address without a pipe: the port and the full address. -/
def resolveSingle (remoteAddr : Str) : Option (Int × Str) :=
  match split remoteAddr (byte ':') with
  | [p] => (atoi p).map fun port => (port, lit "127.0.0.1:" ++ itoa port)
  | _ :: p :: _ => (atoi p).map fun port => (port, remoteAddr)
  | [] => none

/-- The loop over the entries of a pipe list. An entry that is blank is passed over. -/
def resolveParts : List Str → Option (List (Int × Str))
  | [] => some []
  | part :: parts =>
    if trimSpace part = [] then resolveParts parts
    else
      match resolveSingle (trimSpace part) with
      | none => none
      | some r => (resolveParts parts).map (r :: ·)

def resolveRemoteAddr (remoteAddr : Str) : Option (Int × Str) :=
  if byte '|' ∈ remoteAddr then
    let parts := split remoteAddr (byte '|')
    match resolveParts parts with
    | none => none
    | some resolved =>
      -- the reported port is that of the entry with index 0, when it is not blank
      let firstPort := if trimSpace (parts.headD []) = [] then 0 else (resolved.headD (0, [])).1
      some (firstPort, join (resolved.map Prod.snd) (byte '|'))
  else resolveSingle remoteAddr

/-! ## internal/frp/frp.go and internal/rathole/rathole.go -/

structure Mapping where
  listen : Str
  target : Str
  deriving DecidableEq

def portRange (s : Str) : Option (Int × Int) :=
  match cut s (byte '-') with
  | (a, b, true) =>
    match atoi (trimSpace a), atoi (trimSpace b) with
    | some lo, some hi => if lo < 1 ∨ hi > 65535 ∨ lo > hi then none else some (lo, hi)
    | _, _ => none
  | (_, _, false) => none

def normalizeTarget (spec : Str) : Str :=
  let spec := trimSpace spec
  if (atoi spec).isSome then lit "127.0.0.1:" ++ spec else spec

def expandEntry (raw : Str) : List Mapping :=
  let raw := trimSpace raw
  if raw = [] then []
  else
    let parts := cut raw (byte '=')
    let left := trimSpace parts.1
    let right := trimSpace parts.2.1
    match portRange left with
    | some (lo, hi) =>
      -- `right` is not looked at
      (portsUpTo lo hi).map fun port => ⟨byte ':' :: itoa port, normalizeTarget (itoa port)⟩
    | none =>
      let listen := if (atoi left).isSome then byte ':' :: left else left
      let target := if parts.2.2 = true ∧ right ≠ [] then right else left
      [⟨listen, normalizeTarget target⟩]

namespace Frp

def mappings (ports : List Str) : List Mapping := ports.flatMap expandEntry

end Frp

namespace Rathole

def mappings (ports : List Str) : List Mapping := ports.flatMap expandEntry

end Rathole

end ArangeTun.Ports
