import ArangeTun.Go.Str

/-!
# Addresses of the standard library

`net.ParseIP` gives the sixteen bytes of an address; an IPv4 address has its mapped form. Two addresses
are equal when their bytes are.
-/

namespace Go

def parseOctet (p : Str) : Option UInt8 :=
  if p = [] ∨ (1 < p.length ∧ p.head? = some (byte '0')) then none
  else (digits 0 p).bind fun n => if n ≤ 255 then some (UInt8.ofNat n) else none

def parseIPv4Fields (s : Str) : Option (List UInt8) :=
  match split s (byte '.') with
  | [a, b, c, d] => [a, b, c, d].mapM parseOctet
  | _ => none

def hexDigit (c : UInt8) : Option Nat :=
  if 48 ≤ c ∧ c ≤ 57 then some (c.toNat - 48)
  else if 97 ≤ c ∧ c ≤ 102 then some (c.toNat - 87)
  else if 65 ≤ c ∧ c ≤ 70 then some (c.toNat - 55)
  else none

def hexValue (s : Str) : Nat := s.foldl (fun acc c => 16 * acc + (hexDigit c).getD 0) 0

/-- The loop of `parseIPv6`: the bytes read, where the ellipsis stands among them, and the rest of the string. -/
def parseGroups : Nat → List UInt8 → Option Nat → Str → Option (List UInt8 × Option Nat × Str)
  | 0, ip, ellipsis, s => some (ip, ellipsis, s)
  | left + 1, ip, ellipsis, s =>
    let group := s.takeWhile fun c => (hexDigit c).isSome
    if group = [] ∨ 4 < group.length then none
    else
      let ip' := ip ++ [UInt8.ofNat (hexValue group / 256), UInt8.ofNat (hexValue group % 256)]
      match s.drop group.length with
      | [] => some (ip', ellipsis, [])
      | c :: rest =>
        if c = byte '.' then
          -- the last four bytes may be written as an IPv4 address
          if (ellipsis = none ∧ ip.length ≠ 12) ∨ 12 < ip.length then none
          else (parseIPv4Fields s).map fun fields => (ip ++ fields, ellipsis, [])
        else if c ≠ byte ':' then none
        else
          match rest with
          | [] => none
          | d :: rest' =>
            if d = byte ':' then
              if ellipsis.isSome then none
              else if rest' = [] then some (ip', some ip'.length, [])
              else parseGroups left ip' (some ip'.length) rest'
            else parseGroups left ip' ellipsis rest

def parseIPv6 (s : Str) : Option (List UInt8) :=
  let leading := (lit "::").isPrefixOf s
  let rest := if leading then s.drop 2 else s
  if leading ∧ rest = [] then some (List.replicate 16 0)
  else
    match parseGroups 8 [] (if leading then some 0 else none) rest with
    | some (ip, ellipsis, []) =>
      if ip.length < 16 then
        ellipsis.map fun at_ => ip.take at_ ++ List.replicate (16 - ip.length) 0 ++ ip.drop at_
      else if ellipsis.isSome then none
      else some ip
    | _ => none

def parseIP (s : Str) : Option (List UInt8) :=
  match s.find? fun c => c = byte '.' ∨ c = byte ':' ∨ c = byte '%' with
  | none => none
  | some c =>
    if c = byte '.' then
      (parseIPv4Fields s).map fun fields => List.replicate 10 0 ++ [0xff, 0xff] ++ fields
    else if c = byte ':' ∧ byte '%' ∉ s then parseIPv6 s
    else none

example : parseIP (lit "::ffff:1.2.3.4") = parseIP (lit "1.2.3.4") := by decide

end Go
